import Kermol.KernelMapProofs

/-! # What the allocators promise

    Three promises that callers rely on, each with the exact condition under
    which the code keeps it.

    `BitmapFrameAllocator` returns the number of a bit as a physical address,
    while `free` takes the address apart by the page size: the two agree on
    frame 0 only (`frame_contract_iff`).  `VirtualMemoryAllocator::new` fills
    its bitmap and frees nothing, so no page is ever handed out
    (`virtual_serves_iff`).  The size of the frame bitmap drops the frames
    behind the last multiple of eight, and a Usable region that reaches them
    stops the boot (`boot_sizing_iff`). -/

namespace KermolAllocatorContract

open RustEffect X86Paging KermolFrameAllocator KermolPageTable KermolBitmap
open KermolBitmapScan KermolFrameBitmap KermolController KermolInitMemory
open ByteBits WindowScan

variable {a a' : BitmapAllocator} {bits s : Nat}

/-! ## Where `alloc` finds its bits -/

/-- The search succeeds where it starts, at bit 0. -/
def FindsZero (a : BitmapAllocator) (bits : Nat) : Prop :=
  if bits ≤ 16 then
    a.lastAllocated = 0 ∧ ∀ i < byteTarget bits, bitAt a.bitmap i = false
  else Sampled a bits 0

/-- The window at bit 0, as the bit search sees it. -/
theorem clear_bitUsed_zero (hsize : bits < a.size) :
    Clear a.bitUsed 1 (a.size * 8) 0 (byteTarget bits)
      ↔ ∀ i < byteTarget bits, bitAt a.bitmap i = false := by
  have hlen := a.size_eq
  have htarget : byteTarget bits ≤ a.bitmap.length * 8 := by
    rw [byteTarget]
    omega
  have hcell : ∀ i < byteTarget bits, a.bitUsed i = .ok (bitAt a.bitmap i) := by
    intro i hi
    rw [bitUsed_eq a (by omega), Nat.mod_eq_of_lt (by omega)]
  constructor
  · intro h i hi
    have hused := (h i hi).2
    rw [Nat.zero_add, Nat.mul_one, hcell i hi] at hused
    exact Except.ok.inj hused
  · intro h i hi
    rw [Nat.zero_add, Nat.mul_one]
    exact ⟨by omega, by rw [hcell i hi, h i hi]⟩

/-- **BIT 0.**  A search for at least one bit returns position 0 exactly when
    it succeeds where it starts. -/
theorem scan_zero_iff (hpos : 0 < bits) (h : a.scan bits = .ok (.ok s)) :
    s = 0 ↔ FindsZero a bits := by
  have hsize := scan_lt_size h
  have hlen := a.size_eq
  rw [FindsZero]
  split
  · next hsmall =>
      rw [scan_small hsmall hsize, BitmapAllocator.scanBits] at h
      have htarget := le_byteTarget hsmall
      constructor
      · rintro rfl
        obtain ⟨m, hm, -, hfound⟩ := scan_sound (by omega) (by omega) h
        refine ⟨by omega, (clear_bitUsed_zero hsize).mp ?_⟩
        rcases hfound with hfull | ⟨k, -, hk, -, hend⟩
        · exact hfull
        · -- the last window, cut short, does not begin at bit 0
          omega
      · rintro ⟨hlast, hclear⟩
        have hzero : WindowScan.scan a.bitUsed 1 (a.size * 8) (byteTarget bits)
            MemoryError.allocationError (a.size * 8) 0 = .ok (.ok (0 + 0 * 1)) :=
          scan_complete (by omega) (by omega) 0 (by omega)
            (fun m hm => absurd hm (Nat.not_lt_zero m))
            (fun m hm => absurd hm (Nat.not_lt_zero m))
            ((clear_bitUsed_zero hsize).mpr hclear)
        rw [hlast, hzero] at h
        cases h
        rfl
  · next hbig =>
      rw [scan_big (by omega) hsize] at h
      constructor
      · rintro rfl
        exact (scanBytes_sound (by omega) hsize h).1
      · intro hsample
        rw [scanBytes_complete (by omega) hsample fun t ht => absurd ht (Nat.not_lt_zero t)]
          at h
        cases h
        rfl

/-! ## The contract of the frame allocator -/

/-- A call of the frame allocator. -/
inductive FrameOp where
  | alloc
  | allocContiguous (pages : Nat)
  | free (physAddr : PhysAddr)
  | freeContiguous (physAddr : PhysAddr) (pages : Nat)
deriving DecidableEq, Repr

/-- An allocation that returned `Ok`: the state before it, the number of frames
    asked for, the address, and the state after it. -/
structure Grant where
  before : BitmapFrameAllocator
  pages : Nat
  addr : PhysAddr
  after : BitmapFrameAllocator

/-- What is remembered of an allocation. -/
def granted (before : BitmapFrameAllocator) (pages : Nat) :
    Except MemoryError PhysAddr × BitmapFrameAllocator → List Grant × BitmapFrameAllocator
  | (.error _, after) => ([], after)
  | (.ok addr, after) => ([⟨before, pages, addr, after⟩], after)

/-- Perform a call. -/
def FrameOp.perform (f : BitmapFrameAllocator) :
    FrameOp → Panics (List Grant × BitmapFrameAllocator)
  | .alloc => do return granted f 1 (← FrameAllocator.alloc f)
  | .allocContiguous pages => do
      return granted f pages (← FrameAllocator.allocContiguous f pages)
  | .free physAddr => do
      let (_, f') ← FrameAllocator.free f physAddr
      return ([], f')
  | .freeContiguous physAddr pages => do
      let (_, f') ← FrameAllocator.freeContiguous f physAddr pages
      return ([], f')

/-- A run of calls, each in the state the one before it left, and what it
    granted. -/
def frameRun : List FrameOp → BitmapFrameAllocator →
    Panics (List Grant × BitmapFrameAllocator)
  | [], f => return ([], f)
  | op :: ops, f => do
      let (now, f₁) ← op.perform f
      let (later, f') ← frameRun ops f₁
      return (now ++ later, f')

/-- Bit `i` is that of one of `pages` frames from `first` on. -/
def InWindow (first pages i : Nat) : Prop := first ≤ i ∧ i < first + pages

instance (first pages i : Nat) : Decidable (InWindow first pages i) :=
  inferInstanceAs (Decidable (_ ∧ _))

/-- A release on the bitmap, as a release on the frame allocator. -/
def onBits (x : Fallible MemoryError BitmapAllocator Unit) :
    Fallible MemoryError BitmapFrameAllocator Unit :=
  x.map fun (answer, bits) => (answer, ⟨bits⟩)

/-- What a caller of the frame allocator relies on.  The call sets the bits
    from `s` on; they are the bits of the frames at the address it returns, and
    giving the address back addresses them again. -/
structure Contract (g : Grant) : Prop where
  aligned : g.addr.addr % PAGE_SIZE = 0
  marks : ∀ i, bitAt g.after.bits.bitmap i
    = (bitAt g.before.bits.bitmap i
      || decide (InWindow (g.addr.addr / PAGE_SIZE) g.pages i))
  window : ∃ s, g.before.bits.alloc g.pages = .ok (.ok s, g.after.bits)
    ∧ (∀ i, InWindow s g.pages i ↔ InWindow (g.addr.addr / PAGE_SIZE) g.pages i)
    ∧ (0 < g.pages → ∀ f : BitmapFrameAllocator,
      FrameAllocator.freeContiguous f g.addr g.pages
        = onBits (f.bits.freeRange s (s + g.pages)))
    ∧ (g.pages = 1 → ∀ f : BitmapFrameAllocator,
      FrameAllocator.free f g.addr = onBits (f.bits.free s))

/-- The condition on the state before the call: the search succeeds at bit 0;
    a request for no frames returns the search position, whatever the bits. -/
def AtZero (f : BitmapFrameAllocator) (pages : Nat) : Prop :=
  if pages = 0 then f.bits.lastAllocated % PAGE_SIZE = 0 else FindsZero f.bits pages

/-- The grant is what a call of `alloc_contiguous` returned. -/
def Grant.Real (g : Grant) : Prop :=
  g.before.allocContiguous g.pages = .ok (.ok g.addr, g.after)

/-- `free` releases the bit of the frame at the address. -/
theorem free_eq (f : BitmapFrameAllocator) (p : PhysAddr) :
    FrameAllocator.free f p = onBits (f.bits.free (p.addr / PAGE_SIZE)) := by
  show (do
    let (answer, bits) ← f.bits.free (p.addr / PAGE_SIZE)
    return (answer, ⟨bits⟩) : Panics (Except MemoryError Unit × BitmapFrameAllocator)) = _
  cases f.bits.free (p.addr / PAGE_SIZE) <;> rfl

/-- `free_contiguous` releases the bits of the frames from the address on. -/
theorem freeContiguous_eq (f : BitmapFrameAllocator) {p : PhysAddr} {pages : Nat}
    (hfit : p.addr / PAGE_SIZE + pages < 2 ^ 64) :
    FrameAllocator.freeContiguous f p pages
      = onBits (f.bits.freeRange (p.addr / PAGE_SIZE) (p.addr / PAGE_SIZE + pages)) := by
  show BitmapFrameAllocator.freeContiguous f p pages = _
  rw [BitmapFrameAllocator.freeContiguous, if_pos hfit]
  show (do
    let (answer, bits) ← f.bits.freeRange (p.addr / PAGE_SIZE) (p.addr / PAGE_SIZE + pages)
    return (answer, ⟨bits⟩) : Panics (Except MemoryError Unit × BitmapFrameAllocator)) = _
  cases f.bits.freeRange (p.addr / PAGE_SIZE) (p.addr / PAGE_SIZE + pages) <;> rfl

/-- Two windows of the same length are the same bits only from the same bit. -/
theorem window_inj {s t pages : Nat} (hpos : 0 < pages)
    (h : ∀ i, InWindow s pages i ↔ InWindow t pages i) : s = t := by
  have hs := (h s).mp ⟨Nat.le_refl s, by omega⟩
  have ht := (h t).mpr ⟨Nat.le_refl t, by omega⟩
  exact Nat.le_antisymm ht.1 hs.1

/-- A number that is its own quotient by the page size is 0. -/
theorem eq_zero_of_frame {s : Nat} (h : s = s / PAGE_SIZE) : s = 0 := by
  rw [PAGE_SIZE] at h
  omega

/-- A grant of no frames: only the address matters. -/
theorem contract_nothing {g : Grant} (hreal : g.Real) (hnone : g.pages = 0) :
    Contract g ↔ g.before.bits.lastAllocated % PAGE_SIZE = 0 := by
  rcases framesAlloc_cases hreal with ⟨e, he, -⟩ | ⟨s, p, hp, haddr, halloc⟩
  · cases he
  · cases hp
    obtain ⟨hs, hsame⟩ := alloc_zero (hnone ▸ halloc)
    have hempty : ∀ first i, ¬ InWindow first g.pages i := by
      rintro first i ⟨hlo, hhi⟩
      omega
    constructor
    · intro h
      rw [← hs, ← haddr]
      exact h.aligned
    · intro hal
      refine ⟨by rw [haddr, hs]; exact hal, fun i => ?_, s, halloc, fun i => ?_, ?_, ?_⟩
      · rw [hsame, decide_eq_false (hempty _ i), Bool.or_false]
      · exact iff_of_false (hempty _ i) (hempty _ i)
      · intro hpos
        omega
      · intro hone
        omega

/-- A grant of at least one frame: the contract holds at bit 0 alone. -/
theorem contract_frames {g : Grant} (hreal : g.Real) (hpos : 0 < g.pages) :
    Contract g ↔ FindsZero g.before.bits g.pages := by
  rcases framesAlloc_cases hreal with ⟨e, he, -⟩ | ⟨s, p, hp, haddr, halloc⟩
  · cases he
  · cases hp
    obtain ⟨hscan, hbound, -, -, -, hbits⟩ := alloc_cases hpos halloc
    rw [← scan_zero_iff hpos hscan]
    constructor
    · intro h
      obtain ⟨t, ht, hwindow, -⟩ := h.window
      cases halloc.symm.trans ht
      rw [haddr] at hwindow
      exact eq_zero_of_frame (window_inj hpos hwindow)
    · intro hzero
      have hframe : g.addr.addr / PAGE_SIZE = s := by
        rw [haddr, hzero, Nat.zero_div]
      have hfit : g.addr.addr / PAGE_SIZE + g.pages < 2 ^ 64 := by
        have hcap := g.before.bits.bounded
        omega
      refine ⟨by rw [haddr, hzero, Nat.zero_mod], fun i => ?_, s, halloc, fun i => ?_, ?_, ?_⟩
      · rw [hframe]
        exact hbits i
      · rw [hframe]
      · intro _ f
        rw [freeContiguous_eq f hfit, hframe]
      · intro _ f
        rw [free_eq f, hframe]

/-- **ONE CALL.** -/
theorem contract_iff {g : Grant} (hreal : g.Real) :
    Contract g ↔ AtZero g.before g.pages := by
  rw [AtZero]
  split
  · next hnone => exact contract_nothing hreal hnone
  · next hsome => exact contract_frames hreal (by omega)

/-- What is remembered of an allocation was returned by it. -/
theorem granted_real {f f' : BitmapFrameAllocator} {pages : Nat}
    {r : Except MemoryError PhysAddr} (h : f.allocContiguous pages = .ok (r, f')) :
    ∀ g ∈ (granted f pages (r, f')).1, g.Real := by
  cases r with
  | error e => exact nofun
  | ok p => exact List.forall_mem_singleton.mpr h

/-- Everything a call grants was returned by it. -/
theorem perform_real {op : FrameOp} {f f' : BitmapFrameAllocator} {now : List Grant}
    (h : op.perform f = .ok (now, f')) : ∀ g ∈ now, g.Real := by
  cases op with
  | alloc =>
      obtain ⟨⟨r, f₁⟩, halloc, h⟩ := bind_eq_ok.mp h
      rw [← (Prod.mk.inj (Except.ok.inj h)).1]
      exact granted_real halloc
  | allocContiguous pages =>
      obtain ⟨⟨r, f₁⟩, halloc, h⟩ := bind_eq_ok.mp h
      rw [← (Prod.mk.inj (Except.ok.inj h)).1]
      exact granted_real halloc
  | free p =>
      obtain ⟨⟨r, f₁⟩, -, h⟩ := bind_eq_ok.mp h
      cases h
      exact nofun
  | freeContiguous p pages =>
      obtain ⟨⟨r, f₁⟩, -, h⟩ := bind_eq_ok.mp h
      cases h
      exact nofun

theorem frameRun_real {ops : List FrameOp} :
    ∀ {f f' : BitmapFrameAllocator} {grants : List Grant},
      frameRun ops f = .ok (grants, f') → ∀ g ∈ grants, g.Real := by
  induction ops with
  | nil =>
      intro f f' grants h
      cases h
      exact nofun
  | cons op ops ih =>
      intro f f' grants h
      rw [frameRun] at h
      obtain ⟨⟨now, f₁⟩, hnow, h⟩ := bind_eq_ok.mp h
      obtain ⟨⟨later, f₂⟩, hlater, h⟩ := bind_eq_ok.mp h
      cases h
      intro g hg
      rcases List.mem_append.mp hg with hg | hg
      · exact perform_real hnow g hg
      · exact ih hlater g hg

/-- **THE CONTRACT, EXACTLY.**  In a run of calls from any bitmap, an
    allocation that returns `Ok` meets the contract if and only if its search
    succeeds at bit 0; so the run meets it throughout exactly when all of them
    do. -/
theorem frame_contract_iff (ops : List FrameOp) (f f' : BitmapFrameAllocator)
    (grants : List Grant) (hrun : frameRun ops f = .ok (grants, f')) :
    (∀ g ∈ grants, Contract g ↔ AtZero g.before g.pages)
      ∧ ((∀ g ∈ grants, Contract g) ↔ ∀ g ∈ grants, AtZero g.before g.pages) := by
  have hone : ∀ g ∈ grants, Contract g ↔ AtZero g.before g.pages :=
    fun g hg => contract_iff (frameRun_real hrun g hg)
  exact ⟨hone, forall₂_congr hone⟩

/-- Sixteen free frames. -/
def freeFrames : BitmapFrameAllocator where
  bits := {
    ptr := sampleDirect
    bitmap := [0#8, 0#8]
    size := 16
    lastAllocated := 0
    size_eq := by simp
    bounded := by decide
    cursor := cursor_zero }

/-- The first frame handed out is frame 0. -/
theorem frame_contract_iff_sample :
    ∃ g f', frameRun [.alloc] freeFrames = .ok ([g], f') ∧ Contract g := by
  have hrun : ∃ g f', frameRun [.alloc] freeFrames = .ok ([g], f')
      ∧ g.before = freeFrames ∧ g.pages = 1 := ⟨_, _, rfl, rfl, rfl⟩
  obtain ⟨g, f', hrun, hbefore, hpages⟩ := hrun
  refine ⟨g, f', hrun, ?_⟩
  refine ((frame_contract_iff [.alloc] freeFrames f' [g] hrun).1 g
    List.mem_cons_self).mpr ?_
  rw [hbefore, hpages]
  exact ⟨rfl, by decide⟩

/-- The second one is frame 1, and the address returned is 1. -/
theorem frame_address_is_bit :
    ∃ g₁ g₂ f', frameRun [.alloc, .alloc] freeFrames = .ok ([g₁, g₂], f')
      ∧ g₂.addr.addr = 1 ∧ ¬ Contract g₂ := by
  refine ⟨_, _, _, rfl, rfl, fun h => ?_⟩
  exact absurd h.aligned (by decide)

/-! ## The capacity of the virtual allocator -/

/-- `alloc_contiguous` for one request after the other, as long as they return
    `Ok`: the addresses, with the numbers of pages. -/
def allocSequence : List Nat → VirtualMemoryAllocator →
    Fallible MemoryError VirtualMemoryAllocator (List (VirtAddr × Nat))
  | [], va => .ok (.ok [], va)
  | pages :: requests, va =>
      andThen (va.allocContiguous pages) fun virt va =>
      andThen (allocSequence requests va) fun ranges va =>
        .ok (.ok ((virt, pages) :: ranges), va)

/-- Two ranges of pages share no byte. -/
def RangesApart (p q : VirtAddr × Nat) : Prop :=
  p.1.addr + p.2 * PAGE_SIZE ≤ q.1.addr ∨ q.1.addr + q.2 * PAGE_SIZE ≤ p.1.addr

/-- Every request returns `Ok`, and the ranges are disjoint pages of the
    allocator's area. -/
def Serves (va : VirtualMemoryAllocator) (size : Nat) (requests : List Nat) : Prop :=
  ∃ ranges va', allocSequence requests va = .ok (.ok ranges, va')
    ∧ ranges.Pairwise RangesApart
    ∧ ∀ p ∈ ranges, PAGE_ALLOCATOR_START.addr ≤ p.1.addr
      ∧ p.1.addr + p.2 * PAGE_SIZE ≤ PAGE_ALLOCATOR_START.addr + 8 * size * PAGE_SIZE

/-- Requests that fit in a bitmap of `size` bytes, whole bytes each. -/
structure WithinCapacity (size : Nat) (requests : List Nat) : Prop where
  each : ∀ pages ∈ requests, 1 ≤ pages ∧ pages < 8 * size
  total : (requests.map byteTarget).sum ≤ 8 * size

/-- **A FULL BITMAP SERVES NOTHING.**  Neither search finds a position. -/
theorem alloc_full (hpos : 0 < bits) (hfull : ∀ byte ∈ a.bitmap, byte = 0xFF#8) :
    a.alloc bits ≠ .ok (.ok s, a') := by
  intro h
  have hbyte : ∀ i < a.bitmap.length, a.bitmap.getD i 0#8 = 0xFF#8 := by
    intro i hi
    rw [List.getD_eq_getElem _ _ hi]
    exact hfull _ (List.getElem_mem hi)
  obtain ⟨hscan, hbound, -⟩ := alloc_cases hpos h
  by_cases hsmall : bits ≤ 16
  · have hclear := alloc_clear_small hpos hsmall h s (Nat.le_refl s) (by omega)
    rw [bitAt, hbyte (s / 8) (by omega)] at hclear
    have hset : ∀ j < 8, (0xFF#8 : Byte).getLsbD j = true := by decide
    rw [hset (s % 8) (Nat.mod_lt s (by omega))] at hclear
    cases hclear
  · have hsize := scan_lt_size hscan
    rw [scan_big (by omega) hsize] at hscan
    obtain ⟨hsample, -⟩ := scanBytes_sound (by omega) hsize hscan
    have hfits := hsample.fits
    have hzero := hsample.zero 0 hpos
    rw [hbyte (s + 8 * 0) (by omega)] at hzero
    exact absurd hzero (by decide)

/-- **THE VIRTUAL ALLOCATOR, EXACTLY.**  A new allocator of any size serves a
    sequence of requests within its capacity if and only if it is empty. -/
theorem virtual_serves_iff (size : Nat) (la la' : LinearFrameAllocator)
    (pt : RecursivePageTable) (va : VirtualMemoryAllocator) (requests : List Nat)
    (hnew : VirtualMemoryAllocator.new size la pt = .ok (.ok va, la'))
    (hreq : WithinCapacity size requests) :
    Serves va size requests ↔ requests = [] := by
  constructor
  · rintro ⟨ranges, va', hseq, -, -⟩
    cases requests with
    | nil => rfl
    | cons pages requests =>
        exfalso
        obtain ⟨a, la₁, hbits, hva⟩ := andThen_eq_ok hnew
        cases hva
        obtain ⟨_, ha, hbuilt⟩ := bitmapNew_cases hbits
        cases ha
        have hfull : ∀ byte ∈ a.bitmap, byte = 0xFF#8 := by
          intro byte hmem
          rw [hbuilt.bitmap, if_pos rfl] at hmem
          exact List.eq_of_mem_replicate hmem
        obtain ⟨v, va₁, halloc, -⟩ := andThen_eq_ok hseq
        rcases virtAlloc_cases halloc with ⟨e, he, -⟩ | ⟨s, _, -, -, hs⟩
        · cases he
        · exact alloc_full (hreq.each pages List.mem_cons_self).1 hfull hs
  · rintro rfl
    exact ⟨[], va, rfl, List.Pairwise.nil, nofun⟩

/-- Sixteen pages, as `new` leaves them. -/
def fullPages : VirtualMemoryAllocator where
  bits := {
    ptr := sampleDirect
    bitmap := [0xFF#8, 0xFF#8]
    size := 16
    lastAllocated := 0
    size_eq := by simp
    bounded := by decide
    cursor := cursor_zero }

theorem virtual_serves_iff_sample :
    VirtualMemoryAllocator.new 2 sampleLinear samplePageTable
        = .ok (.ok fullPages, ⟨⟨0x101000, by decide⟩⟩)
      ∧ WithinCapacity 2 [3, 8] ∧ (Serves fullPages 2 [3, 8] ↔ ([3, 8] : List Nat) = []) := by
  have hnew : VirtualMemoryAllocator.new 2 sampleLinear samplePageTable
      = .ok (.ok fullPages, ⟨⟨0x101000, by decide⟩⟩) := by decide +kernel
  have hreq : WithinCapacity 2 [3, 8] := ⟨by decide, by decide⟩
  exact ⟨hnew, hreq, virtual_serves_iff 2 sampleLinear _ samplePageTable fullPages [3, 8]
    hnew hreq⟩

/-- One page of sixteen is refused. -/
theorem new_virtual_serves_nothing :
    VirtualMemoryAllocator.new 2 sampleLinear samplePageTable
        = .ok (.ok fullPages, ⟨⟨0x101000, by decide⟩⟩)
      ∧ WithinCapacity 2 [1]
      ∧ fullPages.allocContiguous 1 = .ok (.error .allocationError, fullPages)
      ∧ ¬ Serves fullPages 2 [1] := by
  have hrefused : fullPages.allocContiguous 1
      = .ok (.error .allocationError, fullPages) := by decide +kernel
  refine ⟨by decide +kernel, ⟨by decide, by decide⟩, hrefused, ?_⟩
  rintro ⟨ranges, va', hseq, -, -⟩
  rw [allocSequence, hrefused, andThen_err] at hseq
  cases hseq

/-! ## The size of the frame bitmap -/

section Boot

variable {b : BootInfo} {highest : MemoryRegionInfo}

/-- A Usable region ends at or below the highest valid region. -/
theorem usable_endFrame_le (h : highestValidRegion b = some highest)
    {r : MemoryRegionInfo} (hr : r ∈ b.rammapEntries) (htype : r.type = .usable) :
    r.endFrame ≤ highest.endFrame := by
  refine Nat.div_le_div_right (le_maxBy h r (List.mem_filter.mpr ⟨hr, ?_⟩))
  simp [htype]

/-- The frames of the Usable regions have bits, and the constructor returns. -/
def Covers (b : BootInfo) (la : LinearFrameAllocator) (pt : RecursivePageTable) : Prop :=
  (∀ r ∈ b.rammapEntries, ∀ f, r.Holds f → f < 8 * b.sizeBytes)
    ∧ ∃ out, BitmapFrameAllocator.new b.sizeBytes la pt b.rammapEntries = .ok out

/-- With `n` frames up to the end of the highest valid region: every Usable
    region ends at or below the last multiple of eight.  An empty one may lie
    anywhere once there are eight frames, and at address 0 otherwise. -/
def BelowLastByte (b : BootInfo) (n : Nat) : Prop :=
  ∀ r ∈ b.rammapEntries, r.type = .usable →
    if 0 < r.length then r.endFrame ≤ n - n % 8 else 8 ≤ n ∨ r.endFrame = 0

/-- For a page-aligned region the two conditions are the same. -/
theorem fits_iff {r : MemoryRegionInfo} {n : Nat} (hbase : r.base % PAGE_SIZE = 0)
    (hlength : r.length % PAGE_SIZE = 0) (hle : r.endFrame ≤ n) :
    Fits (n / 8) r ↔ if 0 < r.length then r.endFrame ≤ n - n % 8
      else 8 ≤ n ∨ r.endFrame = 0 := by
  have hempty : r.firstFrame < r.endFrame ↔ 0 < r.length := by
    unfold MemoryRegionInfo.firstFrame MemoryRegionInfo.endFrame PAGE_SIZE at *
    omega
  rw [Fits]
  by_cases hlen : 0 < r.length
  · rw [if_pos (hempty.mpr hlen), if_pos hlen]
    omega
  · rw [if_neg (hempty.not.mpr hlen), if_neg hlen]
    omega

/-- **THE BOOT SIZING, EXACTLY.**  For a page-aligned memory map the frame
    bitmap covers the Usable memory, and its constructor returns, if and only
    if no Usable region reaches past the last multiple of eight frames. -/
theorem boot_sizing_iff (b : BootInfo) (highest : MemoryRegionInfo)
    (la : LinearFrameAllocator) (pt : RecursivePageTable)
    (hhighest : highestValidRegion b = some highest)
    (haligned : ∀ r ∈ b.rammapEntries, r.base % PAGE_SIZE = 0 ∧ r.length % PAGE_SIZE = 0)
    (hroom : la.cursor.addr + sizeInPages b.sizeBytes * PAGE_SIZE < 2 ^ 52)
    (hcan : IsCanonical (la.cursor.addr + pt.internalOffset)) :
    Covers b la pt ↔ BelowLastByte b highest.endFrame := by
  have hfits : (∀ r ∈ b.rammapEntries, r.type = .usable → Fits b.sizeBytes r)
      ↔ BelowLastByte b highest.endFrame := by
    rw [BootInfo.sizeBytes_eq hhighest, BelowLastByte]
    refine forall₃_congr fun r hr htype => ?_
    obtain ⟨hbase, hlength⟩ := haligned r hr
    exact fits_iff hbase hlength (usable_endFrame_le hhighest hr htype)
  rw [← hfits, Covers, frameBitmapNew_returns_iff hroom hcan]
  constructor
  · rintro ⟨-, h⟩
    exact h
  · intro h
    refine ⟨fun r hr f hf => ?_, h⟩
    obtain ⟨htype, hlo, hhi⟩ := hf
    have hr' := h r hr htype
    rw [Fits, if_pos (by omega)] at hr'
    omega

/-- A machine with one region of memory. -/
def sampleMachine (r : MemoryRegionInfo) : BootInfo :=
  { KermolKernelMap.sampleKernelAt 0x800000 with rammapEntries := [r] }

def nineFrames : MemoryRegionInfo := ⟨0, 0x9000, .usable, by decide⟩

/-- The region that ends highest of those that count.  Its last frame, 16, has no bit. -/
def kernelBehind : MemoryRegionInfo := ⟨0xE000, 0x3000, .executableAndModules, by decide⟩

/-- A machine with two Usable regions among others. -/
def severalRegions : BootInfo :=
  { KermolKernelMap.sampleKernelAt 0xE000 with
    rammapEntries := [⟨0, 0x7000, .usable, by decide⟩,
      ⟨0x7000, 0x3000, .bootloaderReclaimable, by decide⟩, ⟨0xA000, 0x4000, .usable, by decide⟩,
      kernelBehind, ⟨0x14000, 0x1000, .reserved, by decide⟩,
      ⟨0xFC000000, 0x300000, .framebuffer, by decide⟩] }

theorem boot_sizing_iff_sample : Covers severalRegions sampleLinear samplePageTable := by
  refine (boot_sizing_iff severalRegions kernelBehind sampleLinear samplePageTable rfl
    (by decide) (by decide) (by decide)).mpr ?_
  unfold BelowLastByte
  decide

/-- With nine frames the bitmap has one byte.  Frame 8 has no bit, and the
    constructor indexes behind the slice. -/
theorem nine_frames_stop_boot :
    nineFrames.Holds 8
      ∧ 8 * (sampleMachine nineFrames).sizeBytes = 8
      ∧ BitmapFrameAllocator.new (sampleMachine nineFrames).sizeBytes sampleLinear
          samplePageTable (sampleMachine nineFrames).rammapEntries
        = .error .indexOutOfBounds
      ∧ ¬ Covers (sampleMachine nineFrames) sampleLinear samplePageTable := by
  have hholds : nineFrames.Holds 8 := ⟨rfl, by decide, by decide⟩
  refine ⟨hholds, by decide, by decide +kernel, ?_⟩
  rintro ⟨hcover, -⟩
  exact absurd (hcover nineFrames (List.mem_singleton_self _) 8 hholds) (by decide)

end Boot

end KermolAllocatorContract
