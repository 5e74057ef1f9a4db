import Kermol.BitmapRoomProofs
import Kermol.DisplaySpaceProofs

/-! # Memory requests after boot

    `AllocatedMemory::new` and `reserve_physical` start with a search of a bitmap,
    and the slice of the bitmap lies where `init_paging` has put it: behind the
    heap, seen through the direct map.  The page table that `init_memory` loads
    has no page there, so that the first byte of the slice that is read is a page
    fault, and its handler panics.

    The file has the search as the processor runs it, access by access.  Where all
    bytes are found it is the one of the allocator (`alloc_found`), and a request is
    the call of the controller (`run_found`); where none is found it ends at its
    first access (`alloc_blind`).  `requests_fault` is what follows for everything
    that is asked for after boot: what is too large is refused, and nothing else
    returns. -/

namespace KermolClient

open RustEffect X86Paging KermolFrameAllocator KermolPageTable KermolBitmap
open KermolPageTree KermolMapStep KermolPageTableRun KermolFrameBitmap KermolController
open KermolInitMemory KermolPrepared KermolBootTables KermolAddressSpace KermolBootMap
open KermolBitmapScan KermolBitmapRoom KermolPageMap KermolDisplaySpace
open ByteBits WindowScan

/-! ## The search, access by access -/

/-- The bytes of a slice that the processor finds, for reading and for writing.  An
    access to another one is a page fault. -/
structure SliceView where
  reads : Nat → Bool
  writes : Nat → Bool

namespace SliceView

variable (view : SliceView) (self : BitmapAllocator)

/-- `self.bitmap[i]`: the index is checked before the byte is read. -/
def byteAt (i : Nat) : Panics Byte := do
  let byte ← self.byteAt i
  if view.reads i then return byte else .error .explicit

/-- What `scan_bits` adds to its sum. -/
def bitUsed (current : Nat) : Panics Bool := do
  let byte ← view.byteAt self (current / 8 % (self.size / 8))
  return (byte &&& 1#8 <<< (current % 8)) != 0#8

/-- `scan_bits` -/
def scanBits (target : Nat) : Panics (Except MemoryError Nat) :=
  WindowScan.scan (view.bitUsed self) 1 (self.size * 8) target .allocationError
    (self.size * 8) self.lastAllocated

/-- What `scan_bytes` adds to its sum. -/
def byteUsed (current : Nat) : Panics Bool := do
  let byte ← view.byteAt self (current % self.size)
  return byte != 0#8

/-- `scan_bytes` -/
def scanBytes (target : Nat) : Panics (Except MemoryError Nat) := do
  let start ← alignUp self.lastAllocated 8
  WindowScan.scan (view.byteUsed self) 8 self.size target .allocationError self.size start

/-- `scan` -/
def scan (bits : Nat) : Panics (Except MemoryError Nat) :=
  if self.size ≤ bits then return .error .outOfBounds
  else if 16 < bits then view.scanBytes self bits
  else do
    let target ← alignUp bits 8
    view.scanBits self target

/-- `flag` -/
def flag (bit : Nat) (flag : Bool) : Fallible MemoryError BitmapAllocator Unit :=
  if bit / 8 < self.bitmap.length ∧ view.writes (bit / 8) = false then .error .explicit
  else self.flag bit flag

/-- The slice with a byte in each place from `lo` up to `hi`. -/
def filled (lo hi : Nat) (byte : Byte) : BitmapAllocator :=
  self.write (fill self.bitmap lo hi byte) (length_fill _ _ _ _)

/-- The long branch of `flag_range`: `fill` writes its bytes one after the other. -/
def flagAligned (lo byteAlignedStart byteAlignedEnd hi : Nat) (flag : Bool) :
    Fallible MemoryError BitmapAllocator Unit :=
  andThen (forEach (fun bit s => view.flag s bit flag)
      (List.range' lo (byteAlignedStart - lo)) self) fun _ s =>
    if byteAlignedStart / 8 ≤ byteAlignedEnd / 8
        ∧ byteAlignedEnd / 8 ≤ s.bitmap.length then
      if ∀ i < byteAlignedEnd / 8, byteAlignedStart / 8 ≤ i → view.writes i = true then
        forEach (fun bit s => view.flag s bit flag)
          (List.range' byteAlignedEnd (hi - byteAlignedEnd))
          (filled s (byteAlignedStart / 8) (byteAlignedEnd / 8) (if flag then 0xFF#8 else 0#8))
      else .error .explicit
    else .error .indexOutOfBounds

/-- `flag_range` -/
def flagRange (lo hi : Nat) (flag : Bool) : Fallible MemoryError BitmapAllocator Unit :=
  if self.rangeInBounds hi then
    if hi < lo then .error .overflow
    else if hi - lo < 8 then
      forEach (fun bit s => view.flag s bit flag) (List.range' lo (hi - lo)) self
    else view.flagAligned self lo (lo + (8 - lo % 8) % 8) (hi - hi % 8) hi flag
  else .ok (.error .outOfBounds, self)

/-- `alloc` -/
def alloc (bits : Nat) : Fallible MemoryError BitmapAllocator Nat :=
  show Panics _ from do
    match ← view.scan self bits with
    | .error e => return (.error e, self)
    | .ok freeSpace =>
        if h : freeSpace + bits < 2 ^ 64 then
          andThen (view.flagRange (self.setLastAllocated (freeSpace + bits) h)
            freeSpace (freeSpace + bits) true) fun _ s => .ok (.ok freeSpace, s)
        else .error .overflow

end SliceView

/-! ### A slice that is there -/

section Found

variable {view : SliceView} {a : BitmapAllocator} {f : Bool} {lo hi n : Nat}

/-- All bytes of a slice of `n` bytes are found. -/
structure Found (view : SliceView) (n : Nat) : Prop where
  reads : ∀ i < n, view.reads i = true
  writes : ∀ i < n, view.writes i = true

theorem byteAt_found (h : Found view a.bitmap.length) (i : Nat) :
    view.byteAt a i = a.byteAt i := by
  by_cases hi : i < a.bitmap.length
  · rw [SliceView.byteAt, BitmapAllocator.byteAt_ok hi, ok_bind, if_pos (h.reads i hi)]
    rfl
  · rw [SliceView.byteAt, BitmapAllocator.byteAt, if_neg hi]
    rfl

theorem scan_found (h : Found view a.bitmap.length) (bits : Nat) :
    view.scan a bits = a.scan bits := by
  have hbit : view.bitUsed a = a.bitUsed := by
    funext current
    rw [SliceView.bitUsed, byteAt_found h]
    rfl
  have hbyte : view.byteUsed a = a.byteUsed := by
    funext current
    rw [SliceView.byteUsed, byteAt_found h]
    rfl
  have hbits : view.scanBits a = a.scanBits := by
    funext target
    rw [SliceView.scanBits, hbit]
    rfl
  rw [SliceView.scan, SliceView.scanBytes, hbyte, hbits]
  rfl

theorem flag_found (h : Found view a.bitmap.length) (bit : Nat) :
    view.flag a bit f = a.flag bit f := by
  rw [SliceView.flag, if_neg]
  rintro ⟨hlt, hw⟩
  rw [h.writes _ hlt] at hw
  cases hw

/-- `flag` keeps the length of the slice. -/
theorem flag_length {bit : Nat} {r : Except MemoryError Unit} {a' : BitmapAllocator}
    (h : a.flag bit f = .ok (r, a')) : a'.bitmap.length = a.bitmap.length := by
  rw [BitmapAllocator.flag] at h
  split at h
  · split at h
    · cases h
      exact length_orBit _ _ _
    · cases h
  · cases h
    rfl

theorem flagLoop_found (h : Found view n) {bits : List Nat} :
    ∀ {s : BitmapAllocator}, s.bitmap.length = n →
      forEach (fun bit s => view.flag s bit f) bits s
        = forEach (fun bit s => s.flag bit f) bits s := by
  induction bits with
  | nil => exact fun _ => rfl
  | cons bit bits ih =>
      intro s hs
      subst hs
      rw [forEach_cons, forEach_cons, flag_found h]
      cases hflag : s.flag bit f with
      | error p => rfl
      | ok x =>
          obtain ⟨r, s'⟩ := x
          cases r with
          | error e => rfl
          | ok _ =>
              rw [andThen_ok, andThen_ok]
              exact ih (flag_length hflag)

theorem flagLoop_length {bits : List Nat} :
    ∀ {s s' : BitmapAllocator} {r : Except MemoryError Unit},
      forEach (fun bit s => s.flag bit f) bits s = .ok (r, s') →
      s'.bitmap.length = s.bitmap.length := by
  induction bits with
  | nil =>
      intro s s' r h
      cases h
      rfl
  | cons bit bits ih =>
      intro s s' r h
      rw [forEach_cons] at h
      rcases andThen_cases h with ⟨e, hflag, -⟩ | ⟨_, s₁, hflag, h⟩
      · exact flag_length hflag
      · exact (ih h).trans (flag_length hflag)

theorem flagAligned_found {start stop : Nat} (h : Found view a.bitmap.length) :
    view.flagAligned a lo start stop hi f = a.flagAligned lo start stop hi f := by
  rw [SliceView.flagAligned, BitmapAllocator.flagAligned, flagLoop_found h rfl]
  refine andThen_congr fun _ s hs => ?_
  have hlen := flagLoop_length hs
  split
  · next hslice =>
      rw [if_pos fun i hi _ => h.writes i (by omega)]
      exact flagLoop_found h ((length_fill _ _ _ _).trans hlen)
  · rfl

theorem flagRange_found (h : Found view a.bitmap.length) :
    view.flagRange a lo hi f = a.flagRange lo hi f := by
  rw [SliceView.flagRange, flagLoop_found h rfl, flagAligned_found h]
  rfl

/-- **A SLICE THAT IS THERE.**  The search is that of the allocator. -/
theorem alloc_found (h : Found view a.bitmap.length) (bits : Nat) :
    view.alloc a bits = a.alloc bits := by
  rw [SliceView.alloc, BitmapAllocator.alloc, scan_found h]
  congr 1
  funext answer
  cases answer with
  | error e => rfl
  | ok freeSpace =>
      dsimp only
      split
      · rw [flagRange_found]
        exact h
      · rfl

end Found

/-! ### A slice that is not there -/

section Blind

variable {view : SliceView} {a : BitmapAllocator} {bits : Nat}

/-- No byte of the slice is found, and the search starts at the first one. -/
structure Blind (view : SliceView) (a : BitmapAllocator) : Prop where
  reads : ∀ i < a.bitmap.length, view.reads i = false
  start : a.lastAllocated = 0

theorem byteAt_blind (h : Blind view a) {i : Nat} (hi : i < a.bitmap.length) :
    view.byteAt a i = .error .explicit := by
  rw [SliceView.byteAt, BitmapAllocator.byteAt_ok hi, ok_bind, h.reads i hi]
  rfl

/-- The scan ends at its first cell. -/
theorem scan_blind (h : Blind view a) (hpos : 0 < bits) (hlt : bits < a.size) :
    view.scan a bits = .error .explicit := by
  have hsize := a.size_eq
  have hbounded := a.bounded
  have hfirst := byteAt_blind h (show 0 < a.bitmap.length by omega)
  have hnone : ∀ {used : Nat → Panics Bool} {stride limit target : Nat}, 0 < target →
      ∀ m', m' + target ≤ 0 → ¬ Clear used stride limit (0 + m' * stride) target := by
    intro used stride limit target htarget m' hm'
    omega
  rw [SliceView.scan, if_neg (by omega)]
  split
  · rw [SliceView.scanBytes, h.start]
    refine scan_panics (by omega) 0 (by omega) nofun (hnone hpos) (by omega) ?_
    show view.byteUsed a (0 + 0 * 8) = _
    rw [SliceView.byteUsed, Nat.zero_mul, Nat.zero_mod, hfirst]
    rfl
  · next hsmall =>
      obtain ⟨hle, -⟩ := le_byteTarget (Nat.not_lt.mp hsmall)
      rw [alignUp_byteTarget (by omega), ok_bind, SliceView.scanBits, h.start]
      refine scan_panics (by omega) 0 (by omega) nofun (hnone (by omega)) (by omega) ?_
      show view.bitUsed a (0 + 0 * 1) = _
      rw [SliceView.bitUsed, Nat.zero_mul, Nat.zero_div, Nat.zero_mod, hfirst]
      rfl

/-- **A SLICE THAT IS NOT THERE.**  A request is refused for its size, or its search never
    returns. -/
theorem alloc_blind (h : Blind view a) (hpos : 0 < bits) :
    view.alloc a bits
      = if a.size ≤ bits then .ok (.error .outOfBounds, a) else .error .explicit := by
  split
  · next hge =>
      rw [SliceView.alloc, SliceView.scan, if_pos hge]
      rfl
  · next hlt =>
      rw [SliceView.alloc, scan_blind h hpos (Nat.not_le.mp hlt)]
      rfl

end Blind

/-! ## Requests -/

/-- The physical address that is read at an address; none if it is a page fault. -/
def loadPlace (mem : PhysMem) (cr3 : PhysAddr) (a : Nat) : Option Nat :=
  if h : IsCanonical a then (hardwareWalk mem cr3 ⟨a, h⟩).map (·.phys) else none

/-- The slice of an allocator under the page table in `cr3`. -/
def sliceView (mem : PhysMem) (cr3 : PhysAddr) (a : BitmapAllocator) : SliceView where
  reads i := (loadPlace mem cr3 (a.ptr.addr + i)).isSome
  writes i := (storePlace mem cr3 (a.ptr.addr + i)).isSome

/-- `frame_allocator.alloc_contiguous` -/
def takeFrames (cr3 : PhysAddr) (pages : Nat) (c : KernelPagingController) :
    Fallible MemoryError KernelPagingController PhysAddr :=
  c.withFrames <| show Panics _ from do
    match ← (sliceView c.mem cr3 c.frameAllocator.bits).alloc c.frameAllocator.bits pages with
    | (.error e, bits) => return (.error e, ⟨bits⟩)
    | (.ok frame, bits) =>
        let phys ← PhysAddr.new frame
        return (.ok phys, ⟨bits⟩)

/-- `virt_mem_allocator.alloc_contiguous` -/
def takePages (cr3 : PhysAddr) (pages : Nat) (c : KernelPagingController) :
    Fallible MemoryError KernelPagingController VirtAddr :=
  c.withVirt <| show Panics _ from do
    match ← (sliceView c.mem cr3 c.virtMemAllocator.bits).alloc c.virtMemAllocator.bits pages with
    | (.error e, bits) => return (.error e, ⟨bits⟩)
    | (.ok page, bits) =>
        let virt ← PAGE_ALLOCATOR_START.add (page * PAGE_SIZE)
        return (.ok virt, ⟨bits⟩)

/-- What code that runs after boot asks for: `AllocatedMemory::new` or
    `reserve_physical`. -/
inductive Request where
  | new (size : Nat) (flags : PageTableFlags)
  | reservePhysical (physAddr : PhysAddr) (size : Nat) (flags : PageTableFlags)

namespace Request

def size : Request → Nat
  | .new size _ => size
  | .reservePhysical _ size _ => size

def flags : Request → PageTableFlags
  | .new _ flags => flags
  | .reservePhysical _ _ flags => flags

def pages (self : Request) : Nat := divCeilPages self.size

/-- The steps up to `map_contiguous`. -/
def search (cr3 : PhysAddr) (self : Request) (c : KernelPagingController) :
    Fallible MemoryError KernelPagingController (PhysAddr × VirtAddr) :=
  match self with
  | .new _ _ =>
      andThen (takeFrames cr3 self.pages c) fun phys c =>
        andThen (takePages cr3 self.pages c) fun virt c => .ok (.ok (phys, virt), c)
  | .reservePhysical physAddr _ _ =>
      andThen (takePages cr3 self.pages c) fun virt c => .ok (.ok (physAddr, virt), c)

/-- `map_contiguous`, for bitmaps that are found: the tables come out of one of them. -/
def mapping (self : Request) (place : PhysAddr × VirtAddr) (c : KernelPagingController) :
    Fallible MemoryError KernelPagingController Unit :=
  c.map place.1 place.2 self.pages self.flags

/-- A request.  What comes behind its search is `rest`. -/
def run (rest : Request → PhysAddr × VirtAddr → KernelPagingController →
      Fallible MemoryError KernelPagingController Unit)
    (cr3 : PhysAddr) (self : Request) (k : Kernel) : Fallible MemoryError Kernel Unit :=
  if self.size = 0 then .ok (.error .emptyAllocation, k)
  else AllocatedMemory.withController k fun c => andThen (self.search cr3 c) (rest self)

/-- The request as a call. -/
def call : Request → Kernel → Fallible MemoryError Kernel AllocatedMemory
  | .new size flags => AllocatedMemory.new size flags
  | .reservePhysical physAddr size flags => AllocatedMemory.reservePhysical physAddr size flags

/-- What a request is compared with: the bits of its bitmap. -/
def capacity (self : Request) (c : KernelPagingController) : Nat :=
  match self with
  | .new _ _ => c.frameAllocator.bits.size
  | .reservePhysical _ _ _ => c.virtMemAllocator.bits.size

/-- The error of a request that is refused before its search. -/
def refusal (self : Request) : MemoryError :=
  if self.size = 0 then .emptyAllocation else .outOfBounds

end Request

/-- Requests one after the other, with their answers. -/
def runRequests (rest : Request → PhysAddr × VirtAddr → KernelPagingController →
      Fallible MemoryError KernelPagingController Unit) (cr3 : PhysAddr) :
    List Request → Kernel → Panics (List (Except MemoryError Unit) × Kernel)
  | [], k => return ([], k)
  | request :: requests, k => do
      let x ← request.run rest cr3 k
      let y ← runRequests rest cr3 requests x.2
      return (x.1 :: y.1, y.2)

section Requests

variable {cr3 : PhysAddr} {c : KernelPagingController}
  {rest : Request → PhysAddr × VirtAddr → KernelPagingController →
    Fallible MemoryError KernelPagingController Unit}

/-! ### Bitmaps that are there -/

theorem takeFrames_found {pages : Nat} (h : Found (sliceView c.mem cr3 c.frameAllocator.bits)
    c.frameAllocator.bits.bitmap.length) :
    takeFrames cr3 pages c = c.withFrames (c.frameAllocator.allocContiguous pages) := by
  rw [takeFrames, alloc_found h]
  rfl

theorem takePages_found {pages : Nat} (h : Found (sliceView c.mem cr3 c.virtMemAllocator.bits)
    c.virtMemAllocator.bits.bitmap.length) :
    takePages cr3 pages c = c.withVirt (c.virtMemAllocator.allocContiguous pages) := by
  rw [takePages, alloc_found h]
  rfl

/-- A result that is dropped. -/
def dropped {σ α : Type} (x : Fallible MemoryError σ α) : Fallible MemoryError σ Unit :=
  andThen x fun _ s => .ok (.ok (), s)

theorem dropped_andThen {σ α β : Type} (x : Fallible MemoryError σ α)
    (f : α → σ → Fallible MemoryError σ β) :
    dropped (andThen x f) = andThen x fun a s => dropped (f a s) := andThen_assoc x f _

theorem dropped_unit {σ : Type} (x : Fallible MemoryError σ Unit) : dropped x = x := by
  cases x with
  | error p => rfl
  | ok r =>
      obtain ⟨answer, s⟩ := r
      cases answer with
      | error e => rfl
      | ok a => rfl

/-- Virtual pages and the mapping. -/
theorem reserve_found {pages : Nat} (phys : PhysAddr) (flags : PageTableFlags)
    (h : Found (sliceView c.mem cr3 c.virtMemAllocator.bits)
      c.virtMemAllocator.bits.bitmap.length) :
    andThen (takePages cr3 pages c) (fun virt c => c.map phys virt pages flags)
      = dropped (c.reserveAndMap phys pages flags) := by
  rw [takePages_found h, KernelPagingController.reserveAndMap, dropped_andThen]
  congr 1
  funext virt c
  rw [dropped_andThen]
  exact (dropped_unit _).symm

/-- The steps of a request. -/
def Request.steps (self : Request) (c : KernelPagingController) :
    Fallible MemoryError KernelPagingController Unit :=
  match self with
  | .new _ flags => dropped (c.allocate self.pages flags)
  | .reservePhysical physAddr _ flags => dropped (c.reserveAndMap physAddr self.pages flags)

theorem steps_found
    (hf : Found (sliceView c.mem cr3 c.frameAllocator.bits) c.frameAllocator.bits.bitmap.length)
    (hv : Found (sliceView c.mem cr3 c.virtMemAllocator.bits)
      c.virtMemAllocator.bits.bitmap.length) (request : Request) :
    andThen (request.search cr3 c) request.mapping = request.steps c := by
  cases request with
  | new size flags =>
      rw [Request.search, Request.steps, KernelPagingController.allocate, andThen_assoc,
        dropped_andThen, takeFrames_found hf]
      refine andThen_congr fun phys c' hframes => ?_
      obtain ⟨frames, -, rfl⟩ := withFrames_eq_ok hframes
      rw [andThen_assoc, dropped_andThen]
      exact reserve_found phys flags hv
  | reservePhysical physAddr size flags =>
      rw [Request.search, Request.steps, andThen_assoc]
      exact reserve_found physAddr flags hv

theorem dropped_sized {α : Type} {size : Nat} {result : α → AllocatedMemory}
    {steps : KernelPagingController → Fallible MemoryError KernelPagingController α} (k : Kernel) :
    dropped (AllocatedMemory.sized size steps result k)
      = if size = 0 then .ok (.error .emptyAllocation, k)
        else AllocatedMemory.withController k fun c => dropped (steps c) := by
  rw [AllocatedMemory.sized]
  split
  · rfl
  · cases k with
    | none => rfl
    | some c =>
        rw [AllocatedMemory.withController, AllocatedMemory.withController]
        cases steps c with
        | error p => rfl
        | ok r =>
            obtain ⟨answer, c'⟩ := r
            cases answer with
            | error e => rfl
            | ok a => rfl

/-- **BITMAPS THAT ARE THERE.**  With the mapping behind its search, a request is the call. -/
theorem run_found
    (hf : Found (sliceView c.mem cr3 c.frameAllocator.bits) c.frameAllocator.bits.bitmap.length)
    (hv : Found (sliceView c.mem cr3 c.virtMemAllocator.bits)
      c.virtMemAllocator.bits.bitmap.length) (request : Request) :
    request.run Request.mapping cr3 (some c) = dropped (request.call (some c)) := by
  rw [Request.run, AllocatedMemory.withController, steps_found hf hv]
  cases request with
  | new size flags =>
      rw [Request.call, AllocatedMemory.new, dropped_sized]
      rfl
  | reservePhysical physAddr size flags =>
      rw [Request.call, AllocatedMemory.reservePhysical, dropped_sized]
      rfl

/-! ### Bitmaps that are not there -/

/-- Neither bitmap is found. -/
structure BothBlind (cr3 : PhysAddr) (c : KernelPagingController) : Prop where
  frames : Blind (sliceView c.mem cr3 c.frameAllocator.bits) c.frameAllocator.bits
  pages : Blind (sliceView c.mem cr3 c.virtMemAllocator.bits) c.virtMemAllocator.bits

theorem search_blind (h : BothBlind cr3 c) {request : Request} (hsize : request.size ≠ 0) :
    request.search cr3 c = if request.capacity c ≤ request.pages
      then .ok (.error .outOfBounds, c) else .error .explicit := by
  have hpages : 0 < request.pages := divCeilPages_pos hsize
  cases request with
  | new size flags =>
      rw [Request.search, takeFrames, alloc_blind h.frames hpages, Request.capacity]
      split <;> rfl
  | reservePhysical physAddr size flags =>
      rw [Request.search, takePages, alloc_blind h.pages hpages, Request.capacity]
      split <;> rfl

/-- **ONE REQUEST.**  It is refused before its search, or it never returns. -/
theorem run_blind (h : BothBlind cr3 c) (request : Request) :
    request.run rest cr3 (some c)
      = if request.size = 0 ∨ request.capacity c ≤ request.pages
        then .ok (.error request.refusal, some c) else .error .explicit := by
  rw [Request.run, Request.refusal]
  by_cases hsize : request.size = 0
  · rw [if_pos hsize, if_pos (Or.inl hsize), if_pos hsize]
  · rw [if_neg hsize, if_neg hsize, AllocatedMemory.withController, search_blind h hsize]
    by_cases hcap : request.capacity c ≤ request.pages
    · rw [if_pos hcap, if_pos (Or.inr hcap)]
      rfl
    · rw [if_neg hcap, if_neg (by tauto)]
      rfl

/-- **A RUN OF REQUESTS.**  By induction on the requests: none of them changes anything. -/
theorem runRequests_blind (h : BothBlind cr3 c) {requests : List Request} :
    ∀ {answers : List (Except MemoryError Unit)} {k : Kernel},
      runRequests rest cr3 requests (some c) = .ok (answers, k)
        ↔ (∀ r ∈ requests, r.size = 0 ∨ r.capacity c ≤ r.pages)
          ∧ answers = requests.map (fun r => .error r.refusal) ∧ k = some c := by
  induction requests with
  | nil =>
      intro answers k
      rw [runRequests]
      constructor
      · intro hrun
        cases hrun
        exact ⟨nofun, rfl, rfl⟩
      · rintro ⟨-, rfl, rfl⟩
        rfl
  | cons request requests ih =>
      intro answers k
      rw [runRequests, run_blind h, List.forall_mem_cons]
      by_cases hrefused : request.size = 0 ∨ request.capacity c ≤ request.pages
      · rw [if_pos hrefused, ok_bind, bind_eq_ok]
        constructor
        · rintro ⟨⟨answers', k'⟩, hrun, hdone⟩
          cases hdone
          obtain ⟨hall, rfl, rfl⟩ := ih.mp hrun
          exact ⟨⟨hrefused, hall⟩, rfl, rfl⟩
        · rintro ⟨⟨-, hall⟩, rfl, rfl⟩
          exact ⟨_, ih.mpr ⟨hall, rfl, rfl⟩, rfl⟩
      · rw [if_neg hrefused]
        exact iff_of_false nofun fun h => hrefused h.1.1

end Requests

/-! ## After boot -/

section Boot

variable {b : BootInfo} {kSect region : MemoryRegionInfo} {mem : PhysMem} {root : PhysAddr}
  {c : KernelPagingController} {heapVirt : VirtAddr} {m : Mapping} {n : Nat}

/-- Where boot takes memory behind the heap, the direct map has neither the recursive slot
    nor a page of the kernel. -/
structure BehindHeap (b : BootInfo) : Prop where
  outside : DirectOutside b
  kernel : ∀ m ∈ b.kernelPages, m.2 < b.heapEnd + b.hhdm.offset.addr
    ∨ b.heapEnd + b.hhdm.offset.addr + b.bootFrames * PAGE_SIZE ≤ m.2

/-- No page that `load` finds lies there. -/
theorem not_behind (hm : AtLoad b kSect ((n + b.hhdm.offset.addr) / PAGE_SIZE) m)
    (hkernel : kernelRegion b = some kSect) (hmap : MemoryMapOk b) (hbehind : BehindHeap b)
    (hregion : allocatorRegion b = some region)
    (hlarge : b.heapEnd + b.bootFrames * PAGE_SIZE ≤ region.base + region.length)
    (hlo : b.heapEnd ≤ n) (hhi : n < b.heapEnd + b.bootFrames * PAGE_SIZE) : False := by
  obtain ⟨hmem, husable⟩ := allocatorRegion_mem hregion
  have hbase := hmap.aligned region hmem husable
  have hoff := b.hhdm.aligned
  have hend : b.heapEnd = region.base + 4 * 1024 * 1024 := by
    rw [BootInfo.heapEnd, BootInfo.allocatorBase_eq hregion]
    rfl
  rcases hm with hheap | ⟨-, flags, hpart, -⟩
  · obtain ⟨-, m', hm', hpage, -⟩ := mem_flagged.mp hheap
    obtain ⟨i, hi, rfl⟩ := mem_pagesFrom.mp hm'
    rw [BootInfo.allocatorBase_eq hregion] at hpage
    dsimp only at hpage
    unfold heapPages KERNEL_HEAP_SIZE PAGE_SIZE at *
    omega
  · rcases List.mem_append.mp hpart with hkern | hmisc
    · obtain ⟨-, m', hm', hpage, -⟩ := mem_kernelPart hkern
      have hout := hbehind.kernel m' (BootInfo.kernelPages_eq hkernel ▸ hm')
      dsimp only at hpage
      unfold PAGE_SIZE at *
      omega
    · obtain ⟨-, m', hm', hpage, -⟩ := mem_flagged.mp hmisc
      obtain ⟨q, hq, hsome, i, hi, rfl⟩ := mem_miscPages.mp hm'
      have hlt := lt_of_lt_sizeInPages hi
      have hsep := hmap.separate region hmem husable q hq (not_usable_of_misc hsome)
      dsimp only at hpage
      unfold MemoryRegionInfo.Separate at hsep
      unfold PAGE_SIZE at *
      omega

/-- The processor finds nothing there, -/
theorem walk_behind {v : VirtAddr} (hspace : Space b kSect root c) (hmap : MemoryMapOk b)
    (hbehind : BehindHeap b) (hregion : allocatorRegion b = some region)
    (hlarge : b.heapEnd + b.bootFrames * PAGE_SIZE ≤ region.base + region.length)
    (hlo : b.heapEnd ≤ n) (hhi : n < b.heapEnd + b.bootFrames * PAGE_SIZE)
    (hv : v.addr = n + b.hhdm.offset.addr) : hardwareWalk c.mem root v = none := by
  by_contra hsome
  obtain ⟨t, ht⟩ := Option.ne_none_iff_exists'.mp hsome
  have hout : pageIndex 4 v ≠ RECURSIVE := hbehind.outside v (by omega) (by omega)
  obtain ⟨m, hm, -⟩ := (hspace.hardware hout t).mp ht
  rw [VirtAddr.page, hv] at hm
  exact not_behind hm hspace.kernel hmap hbehind hregion hlarge hlo hhi

/-- and the bitmaps lie there. -/
theorem slices_behind {s : PagingState LinearFrameAllocator} {bitmaps : Nat}
    (hp : Prepared b root s bitmaps c) {a : BitmapAllocator}
    (ha : a = c.frameAllocator.bits ∨ a = c.virtMemAllocator.bits) {i : Nat}
    (hi : i < a.bitmap.length) :
    ∃ n, b.heapEnd ≤ n ∧ n < b.heapEnd + b.bootFrames * PAGE_SIZE
      ∧ a.ptr.addr + i = n + b.hhdm.offset.addr := by
  have hcursor := hp.cursor_eq
  have hbefore := hp.before
  have hbehind := hp.behind
  have hframes := le_sizeInPages b.sizeBytes
  have hpages := le_sizeInPages (b.sizeBytes * 2)
  rw [hcursor, BootInfo.bitmapPages, Nat.add_mul] at hbehind
  rcases ha with rfl | rfl
  · rw [hp.frames.length] at hi
    rw [hp.frames.ptr, hp.offset]
    exact ⟨bitmaps + i, by omega, by omega, by omega⟩
  · rw [hp.pages.length] at hi
    rw [hp.pages.ptr, hp.offset]
    exact ⟨bitmaps + sizeInPages b.sizeBytes * PAGE_SIZE + i, by omega, by omega, by omega⟩

/-- Both searches start at the first bit. -/
theorem prepareMemory_start (h : prepareMemory b mem = .ok (.ok (c, heapVirt))) :
    c.frameAllocator.bits.lastAllocated = 0 ∧ c.virtMemAllocator.bits.lastAllocated = 0 := by
  obtain ⟨region, entry, heapPhys, s₀, s₁, s₂, maps, bits, -, -, -, -, -, hinit, -, hflag, hframes,
    hvirt, -⟩ := prepareMemory_steps h
  obtain ⟨kSect, t₀, t₁, t₂, t₃, -, -, -, -, -, hmaps⟩ := initPaging_steps hinit
  obtain ⟨frames, t₄, hnewf, hmaps⟩ := andThen_eq_ok hmaps
  obtain ⟨virt, t₅, hnewv, hmaps⟩ := andThen_eq_ok hmaps
  cases hmaps
  constructor
  · obtain ⟨hnewf, -⟩ := onAllocator_eq_ok hnewf
    obtain ⟨a, la, hbits, hrest⟩ := andThen_eq_ok hnewf
    obtain ⟨a', hclear, hdone⟩ := bind_eq_ok.mp hrest
    cases hdone
    obtain ⟨_, ha, hbuilt⟩ := bitmapNew_cases hbits
    cases ha
    rw [hframes, (BitmapAllocator.flagRange_shape hflag).lastAllocated,
      (clearUsable_shape hclear).lastAllocated, hbuilt.lastAllocated]
  · obtain ⟨hnewv, -⟩ := onAllocator_eq_ok hnewv
    obtain ⟨a, la, hbits, hdone⟩ := andThen_eq_ok hnewv
    cases hdone
    obtain ⟨_, ha, hbuilt⟩ := bitmapNew_cases hbits
    cases ha
    rw [hvirt, hbuilt.lastAllocated]

/-- `init_memory` writes `root` to `CR3`. -/
def Loads (b : BootInfo) (mem : PhysMem) (root : PhysAddr) : Prop :=
  ∃ c heapVirt pt, prepareMemory b mem = .ok (.ok (c, heapVirt))
    ∧ c.recPageTable.load = .ok (pt, root)

/-- The bits of the bitmap that a request searches after boot. -/
def Request.bootCapacity (b : BootInfo) : Request → Nat
  | .new _ _ => b.sizeBytes * 8
  | .reservePhysical _ _ _ => b.sizeBytes * 2 * 8

/-- `init_memory` in two steps. -/
theorem initMemory_steps {k : Kernel} (h : initMemory b mem = .ok (.ok k)) :
    ∃ c heapVirt pt root, prepareMemory b mem = .ok (.ok (c, heapVirt))
      ∧ c.recPageTable.load = .ok (pt, root) ∧ k = some { c with recPageTable := pt } := by
  obtain ⟨answer, hprep, h⟩ := bind_eq_ok.mp h
  cases answer with
  | error e => cases h
  | ok x =>
      obtain ⟨⟨pt, root⟩, hload, h⟩ := bind_eq_ok.mp h
      cases h
      exact ⟨x.1, x.2, pt, root, hprep, hload, rfl⟩

/-- **THE BITMAPS ARE LEFT BEHIND.**  The loaded page table has none of their bytes. -/
theorem bitmaps_behind (hstack : b.StackOutside) (hmap : MemoryMapOk b) (hbehind : BehindHeap b)
    (hregion : allocatorRegion b = some region)
    (hlarge : b.heapEnd + b.bootFrames * PAGE_SIZE ≤ region.base + region.length)
    (h : prepareMemory b mem = .ok (.ok (c, heapVirt))) {pt : RecursivePageTable}
    (hload : c.recPageTable.load = .ok (pt, root)) {a : BitmapAllocator}
    (ha : a = c.frameAllocator.bits ∨ a = c.virtMemAllocator.bits) :
    ∀ i < a.bitmap.length, ∀ v : VirtAddr, v.addr = a.ptr.addr + i →
      hardwareWalk c.mem root v = none := by
  obtain ⟨⟨kSect, root₀, hspace⟩, -⟩ := prepareMemory_space hstack h
  obtain ⟨_, s, bitmaps, hp⟩ := prepareMemory_cases hstack h
  cases (load_eq hspace.wf).symm.trans hload
  intro i hi v hv
  obtain ⟨n, hlo, hhi, hn⟩ := slices_behind hp ha hi
  exact walk_behind hspace hmap hbehind hregion hlarge hlo hhi (hv.trans hn)

/-- A slice none of whose bytes has a translation. -/
theorem blind_of_walk {a : BitmapAllocator} (hstart : a.lastAllocated = 0)
    (hwalk : ∀ i < a.bitmap.length, ∀ v : VirtAddr, v.addr = a.ptr.addr + i →
      hardwareWalk mem root v = none) : Blind (sliceView mem root a) a where
  start := hstart
  reads := by
    intro i hi
    show (loadPlace mem root (a.ptr.addr + i)).isSome = false
    rw [loadPlace]
    split
    · rw [hwalk i hi _ rfl]
      rfl
    · rfl

/-- The bitmaps have the sizes that `init_paging` gives them. -/
theorem capacity_boot (hstack : b.StackOutside)
    (h : prepareMemory b mem = .ok (.ok (c, heapVirt))) (r : Request) :
    r.capacity c = r.bootCapacity b := by
  obtain ⟨_, s, bitmaps, hp⟩ := prepareMemory_cases hstack h
  cases r with
  | new size flags =>
      rw [Request.capacity, BitmapAllocator.size_eq, hp.frames.length]
      rfl
  | reservePhysical physAddr size flags =>
      rw [Request.capacity, BitmapAllocator.size_eq, hp.pages.length]
      rfl

/-- **REQUESTS FAULT.**  After boot, with a region for the linear allocator that is large
    enough, the loaded page table has no byte of either bitmap.  So whatever the
    kernel's code asks for, and whatever comes behind a search: a request for some
    pages, but fewer than its bitmap has bits, panics in the handler of a page
    fault.  A run returns exactly if there is none of that kind among its requests;
    then every one of them was refused, and nothing has changed. -/
theorem requests_fault (b : BootInfo) (mem : PhysMem) (k : Kernel) (region : MemoryRegionInfo)
    (rest : Request → PhysAddr × VirtAddr → KernelPagingController →
      Fallible MemoryError KernelPagingController Unit)
    (hstack : b.StackOutside) (hmap : MemoryMapOk b) (hbehind : BehindHeap b)
    (hregion : allocatorRegion b = some region)
    (hlarge : b.heapEnd + b.bootFrames * PAGE_SIZE ≤ region.base + region.length)
    (hboot : initMemory b mem = .ok (.ok k)) :
    ∃ c root, k = some c ∧ Loads b mem root
      ∧ (∀ i < c.frameAllocator.bits.bitmap.length, ∀ v : VirtAddr,
        v.addr = c.frameAllocator.bits.ptr.addr + i → hardwareWalk c.mem root v = none)
      ∧ (∀ i < c.virtMemAllocator.bits.bitmap.length, ∀ v : VirtAddr,
        v.addr = c.virtMemAllocator.bits.ptr.addr + i → hardwareWalk c.mem root v = none)
      ∧ (∀ r : Request, r.size ≠ 0 → r.pages < r.bootCapacity b →
        r.run rest root k = .error .explicit)
      ∧ ∀ requests answers k', runRequests rest root requests k = .ok (answers, k')
        ↔ (∀ r ∈ requests, r.size = 0 ∨ r.bootCapacity b ≤ r.pages)
          ∧ answers = requests.map (fun r => .error r.refusal) ∧ k' = k := by
  obtain ⟨c, heapVirt, pt, root, hprep, hload, rfl⟩ := initMemory_steps hboot
  have hwalk := fun a ha => bitmaps_behind hstack hmap hbehind hregion hlarge hprep hload (a := a) ha
  obtain ⟨hstartf, hstartv⟩ := prepareMemory_start hprep
  have hblind : BothBlind root { c with recPageTable := pt } :=
    ⟨blind_of_walk hstartf (hwalk _ (Or.inl rfl)), blind_of_walk hstartv (hwalk _ (Or.inr rfl))⟩
  have hcapacity : ∀ r : Request, r.capacity { c with recPageTable := pt } = r.bootCapacity b := by
    intro r
    rw [← capacity_boot hstack hprep]
    rfl
  refine ⟨_, root, rfl, ⟨c, heapVirt, pt, hprep, hload⟩, hwalk _ (Or.inl rfl),
    hwalk _ (Or.inr rfl), fun r hsize hpages => ?_, fun requests answers k' => ?_⟩
  · rw [run_blind hblind, hcapacity, if_neg (by omega)]
  · rw [runRequests_blind hblind]
    refine and_congr_left fun _ => forall₂_congr fun r _ => ?_
    rw [hcapacity]

theorem sampleBoot_large : sampleBoot.heapEnd + sampleBoot.bootFrames * PAGE_SIZE
    ≤ 0x1400000 + 4756 * PAGE_SIZE := by
  rw [← sampleBoot_bootLimit]
  exact bootFrames_le sampleBoot

theorem sampleBoot_offset : sampleBoot.hhdm.offset.addr = 0xFFFF800000000000 := rfl

theorem sampleBoot_sizeBytes : sampleBoot.sizeBytes = 2560 := by
  decide +kernel

/-- The start of the upper half is not the recursive slot. -/
theorem upper_outside {v : VirtAddr} {start frames : Nat}
    (hlarge : start + frames * PAGE_SIZE ≤ 0x1400000 + 4756 * PAGE_SIZE)
    (hlo : start + 0xFFFF800000000000 ≤ v.addr)
    (hhi : v.addr < start + 0xFFFF800000000000 + frames * PAGE_SIZE) :
    pageIndex 4 v ≠ RECURSIVE := by
  intro hrec
  have hslot : v.addr / 2 ^ 39 % 512 = 510 := congrArg Fin.val hrec
  unfold PAGE_SIZE at *
  omega

/-- It lies below the kernel. -/
theorem below_kernel {start frames : Nat}
    (hlarge : start + frames * PAGE_SIZE ≤ 0x1400000 + 4756 * PAGE_SIZE) (i : Nat) :
    start + 0xFFFF800000000000 + frames * PAGE_SIZE ≤ 0xFFFFFFFF80000000 + i * PAGE_SIZE := by
  unfold PAGE_SIZE at *
  omega

theorem sampleBoot_behind : BehindHeap sampleBoot where
  outside := by
    intro v hlo hhi
    rw [sampleBoot_offset] at hlo hhi
    exact upper_outside sampleBoot_large hlo hhi
  kernel := by
    intro m hm
    rw [sampleBoot_kernelPages] at hm
    obtain ⟨i, -, rfl⟩ := mem_pagesFrom.mp hm
    rw [sampleBoot_offset]
    exact Or.inr (below_kernel sampleBoot_large i)

/-- What is too large is refused, and one page is never handed out. -/
theorem requests_fault_sample :
    ∃ k root, initMemory sampleBoot sampleState.mem = .ok (.ok k)
      ∧ runRequests Request.mapping root [.new 0 flagsRw, .new 0x8000000 flagsRw,
          .reservePhysical ⟨0xFEE00000, by decide⟩ 0x10000000 flagsRw] k
        = .ok ([.error .emptyAllocation, .error .outOfBounds, .error .outOfBounds], k)
      ∧ (Request.new 4096 flagsRw).run Request.mapping root k = .error .explicit := by
  obtain ⟨c, heapVirt, h⟩ := prepareMemory_total sampleBoot_bootable sampleState.mem
  obtain ⟨⟨kSect, root, hspace⟩, -⟩ := prepareMemory_space sampleBoot_stackOutside h
  have hboot : ∃ k, initMemory sampleBoot sampleState.mem = .ok (.ok k) := by
    rw [initMemory, h, ok_bind]
    dsimp only
    rw [load_eq hspace.wf, ok_bind]
    exact ⟨_, rfl⟩
  obtain ⟨k, hk⟩ := hboot
  have hlarge : sampleBoot.heapEnd + sampleBoot.bootFrames * PAGE_SIZE
      ≤ sampleUsable.base + sampleUsable.length := by
    refine sampleBoot_large.trans ?_
    decide
  obtain ⟨c, root, -, -, -, -, hfault, hrun⟩ := requests_fault sampleBoot sampleState.mem k
    sampleUsable Request.mapping sampleBoot_stackOutside sampleBoot_mapOk sampleBoot_behind
    sampleBoot_bootable.allocator hlarge hk
  simp only [Request.bootCapacity, sampleBoot_sizeBytes] at hfault hrun
  refine ⟨k, root, hk, (hrun _ _ _).mpr ⟨?_, rfl, rfl⟩, hfault _ ?_ ?_⟩
  · decide
  · decide
  · decide

end Boot

end KermolClient
