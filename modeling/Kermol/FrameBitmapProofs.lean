import Mathlib.Data.List.Pairwise
import Kermol.BitmapScanProofs

/-! # The frame bitmap

    `BitmapFrameAllocator` keeps one bit for each physical frame: set when the
    frame is in use or not memory, clear when it is free.  It starts with every
    bit set, clears the Usable regions of the memory map, and the boot code
    then sets the bits of the frames it has already taken from the linear
    allocator.

    Setting is exact (`bootFrames_flagged`).  Clearing is not: `flag_range`
    clears whole bytes only, so the map is mirrored exactly when every Usable
    region consists of whole bytes of the bitmap (`new_mirrors_iff`). -/

namespace KermolFrameBitmap

open RustEffect X86Paging KermolFrameAllocator KermolPageTable KermolBitmap
open KermolBitmapScan ByteBits

/-! ## The code -/

/-- `MemoryRegionType` -/
inductive MemoryRegionType where
  | usable
  | reserved
  | acpiReclaimable
  | acpiNvs
  | badMemory
  | bootloaderReclaimable
  | executableAndModules
  | framebuffer
  | acpiTables
deriving DecidableEq, Repr

/-- `MemoryRegionInfo`: an entry of the memory map.  Entries describe physical
    memory, so they end below `2 ^ 64`. -/
structure MemoryRegionInfo where
  base : Nat
  length : Nat
  type : MemoryRegionType
  fits : base + length < 2 ^ 64
deriving DecidableEq, Repr

/-- `BitmapFrameAllocator(BitmapAllocator)` -/
structure BitmapFrameAllocator where
  bits : BitmapAllocator
deriving DecidableEq, Repr

namespace BitmapFrameAllocator

/-- The loop of `new` over the memory map. -/
def clearUsable : List MemoryRegionInfo → BitmapAllocator → Panics BitmapAllocator
  | [], allocator => return allocator
  | r :: regions, allocator =>
      if r.type = .usable then do
        let (answer, allocator) ← allocator.flagRange (r.base / PAGE_SIZE)
          ((r.base + r.length) / PAGE_SIZE) false
        match answer with
        | .error _ => .error .unwrapFailed
        | .ok () => clearUsable regions allocator
      else clearUsable regions allocator

/-- `BitmapFrameAllocator::new` -/
def new (bitmapSize : Nat) (frameAllocator : LinearFrameAllocator)
    (pageTable : RecursivePageTable) (mmapEntries : List MemoryRegionInfo) :
    Fallible MemoryError LinearFrameAllocator BitmapFrameAllocator :=
  andThen (BitmapAllocator.new bitmapSize true frameAllocator pageTable)
    fun allocator frameAllocator => show Panics _ from do
      let allocator ← clearUsable mmapEntries allocator
      return (.ok ⟨allocator⟩, frameAllocator)

/-- `alloc_contiguous`: the number of the first bit, as it is, becomes the
    physical address. -/
def allocContiguous (self : BitmapFrameAllocator) (pages : Nat) :
    Fallible MemoryError BitmapFrameAllocator PhysAddr :=
  show Panics _ from do
    match ← self.bits.alloc pages with
    | (.error e, bits) => return (.error e, ⟨bits⟩)
    | (.ok frame, bits) =>
        let phys ← PhysAddr.new frame
        return (.ok phys, ⟨bits⟩)

/-- `free` and `free_contiguous` divide the address by the page size. -/
def freeContiguous (self : BitmapFrameAllocator) (physAddr : PhysAddr) (pages : Nat) :
    Fallible MemoryError BitmapFrameAllocator Unit :=
  let offset := physAddr.addr / PAGE_SIZE
  if offset + pages < 2 ^ 64 then show Panics _ from do
    let (answer, bits) ← self.bits.freeRange offset (offset + pages)
    return (answer, ⟨bits⟩)
  else .error .overflow

instance : FrameAllocator BitmapFrameAllocator where
  alloc := fun self => self.allocContiguous 1
  allocContiguous := allocContiguous
  free := fun self physAddr => show Panics _ from do
    let (answer, bits) ← self.bits.free (physAddr.addr / PAGE_SIZE)
    return (answer, ⟨bits⟩)
  freeContiguous := freeContiguous

end BitmapFrameAllocator

/-! ## A new bitmap -/

theorem le_sizeInPages (size : Nat) : size ≤ sizeInPages size * PAGE_SIZE := by
  rw [sizeInPages, PAGE_SIZE]
  split
  · omega
  · omega

/-- What `BitmapAllocator::new` builds: the slice lies in the frames it took,
    seen through the direct map, and every byte is the same. -/
structure Built (size : Nat) (setAtInit : Bool) (frameAllocator : LinearFrameAllocator)
    (pageTable : RecursivePageTable) (a : BitmapAllocator)
    (frameAllocator' : LinearFrameAllocator) : Prop where
  ptr : a.ptr.addr = frameAllocator.cursor.addr + pageTable.internalOffset
  bitmap : a.bitmap = List.replicate size (if setAtInit then 0xFF#8 else 0#8)
  lastAllocated : a.lastAllocated = 0
  cursor : frameAllocator'.cursor.addr
    = frameAllocator.cursor.addr + sizeInPages size * PAGE_SIZE

variable {size : Nat} {setAtInit : Bool} {la la' : LinearFrameAllocator}
  {pt : RecursivePageTable} {a a' : BitmapAllocator}

/-- **`BitmapAllocator::new`, INVERTED.** -/
theorem bitmapNew_cases {r : Except MemoryError BitmapAllocator}
    (h : BitmapAllocator.new size setAtInit la pt = .ok (r, la')) :
    ∃ a, r = .ok a ∧ Built size setAtInit la pt a la' := by
  rw [BitmapAllocator.new] at h
  rcases andThen_cases h with ⟨e, halloc, -⟩ | ⟨phys, la₁, halloc, h⟩
  · obtain ⟨he, -⟩ := LinearFrameAllocator.allocContiguous_eq_ok.mp halloc
    cases he
  · obtain ⟨hphys, hcur⟩ := LinearFrameAllocator.allocContiguous_eq_ok.mp halloc
    cases hphys
    obtain ⟨virt, hvirt, h⟩ := bind_eq_ok.mp h
    split at h
    · cases h
      exact ⟨_, rfl, VirtAddr.new_eq_ok.mp hvirt, rfl, rfl, hcur⟩
    · cases h

/-- `BitmapAllocator::new` succeeds when the linear allocator has room. -/
theorem bitmapNew_total (setAtInit : Bool)
    (hroom : la.cursor.addr + sizeInPages size * PAGE_SIZE < 2 ^ 52)
    (hcan : IsCanonical (la.cursor.addr + pt.internalOffset)) :
    ∃ a la', BitmapAllocator.new size setAtInit la pt = .ok (.ok a, la') := by
  have hle := le_sizeInPages size
  have halloc : la.allocContiguous (sizeInPages size) = .ok (.ok la.cursor, ⟨⟨_, hroom⟩⟩) :=
    LinearFrameAllocator.allocContiguous_eq_ok.mpr ⟨rfl, rfl⟩
  have hvirt : VirtAddr.new (la.cursor.addr + pt.internalOffset) = .ok ⟨_, hcan⟩ :=
    VirtAddr.new_eq_ok.mpr rfl
  rw [BitmapAllocator.new, halloc, andThen_ok, hvirt, ok_bind, dif_pos (by omega)]
  exact ⟨_, _, rfl⟩

theorem Built.length (h : Built size setAtInit la pt a la') : a.bitmap.length = size := by
  rw [h.bitmap, List.length_replicate]

/-- Every bit of a new slice reads as asked. -/
theorem Built.bitAt (h : Built size setAtInit la pt a la') {i : Nat} (hi : i < size * 8) :
    bitAt a.bitmap i = setAtInit := by
  have hlt : i / 8 < a.bitmap.length := by
    rw [h.length]
    omega
  have hbyte : ∀ j, j < 8 → (if setAtInit then 0xFF#8 else 0#8 : Byte).getLsbD j
      = setAtInit := by
    cases setAtInit <;> decide
  rw [bitAt_of_lt hlt]
  simp only [h.bitmap, List.getElem_replicate]
  exact hbyte _ (Nat.mod_lt _ (by omega))

/-! ## Clearing the Usable regions -/

namespace MemoryRegionInfo

/-- The first frame of a region. -/
def firstFrame (r : MemoryRegionInfo) : Nat := r.base / PAGE_SIZE

/-- The frame behind a region. -/
def endFrame (r : MemoryRegionInfo) : Nat := (r.base + r.length) / PAGE_SIZE

/-- The frame lies in a Usable region. -/
def Holds (r : MemoryRegionInfo) (f : Nat) : Prop :=
  r.type = .usable ∧ r.firstFrame ≤ f ∧ f < r.endFrame

/-- The bits that `flag_range` really clears for a Usable region. -/
def Clears (r : MemoryRegionInfo) (i : Nat) : Prop :=
  r.type = .usable ∧ 8 ≤ r.endFrame - r.firstFrame
    ∧ r.firstFrame + (8 - r.firstFrame % 8) % 8 ≤ i ∧ i < r.endFrame - r.endFrame % 8

theorem firstFrame_le (r : MemoryRegionInfo) : r.firstFrame ≤ r.endFrame :=
  Nat.div_le_div_right (Nat.le_add_right _ _)

theorem Clears.holds {r : MemoryRegionInfo} {i : Nat} (h : r.Clears i) : r.Holds i := by
  obtain ⟨htype, hlen, hlo, hhi⟩ := h
  exact ⟨htype, by omega, by omega⟩

/-- A region of whole bytes is cleared completely. -/
theorem clears_of_bytes {r : MemoryRegionInfo} (hlo : r.firstFrame % 8 = 0)
    (hhi : r.endFrame % 8 = 0) {i : Nat} (h : r.Holds i) : r.Clears i := by
  obtain ⟨htype, hle, hlt⟩ := h
  exact ⟨htype, by omega, by omega, by omega⟩

/-- Two regions share no byte. -/
def Separate (r q : MemoryRegionInfo) : Prop :=
  r.base + r.length ≤ q.base ∨ q.base + q.length ≤ r.base

instance : Std.Symm Separate := ⟨fun _ _ h => h.elim Or.inr Or.inl⟩

end MemoryRegionInfo

open MemoryRegionInfo

/-- **THE LOOP OF `new`.**  It clears the whole bytes of every Usable region
    and nothing else. -/
theorem clearUsable_ok {regions : List MemoryRegionInfo} :
    ∀ {a : BitmapAllocator},
      (∀ r ∈ regions, r.type = .usable → r.endFrame ≤ a.bitmap.length * 8) →
      ∃ a', BitmapFrameAllocator.clearUsable regions a = .ok a'
        ∧ BitmapAllocator.SameShape a a'
        ∧ ∀ i, bitAt a'.bitmap i = false
          ↔ bitAt a.bitmap i = false ∨ ∃ r ∈ regions, r.Clears i := by
  induction regions with
  | nil =>
      intro a _
      exact ⟨a, rfl, .refl a, fun i => by simp⟩
  | cons r regions ih =>
      intro a hend
      rw [BitmapFrameAllocator.clearUsable]
      have hrest : ∀ q ∈ regions, q.type = .usable → q.endFrame ≤ a.bitmap.length * 8 :=
        fun q hq => hend q (List.mem_cons_of_mem r hq)
      by_cases htype : r.type = .usable
      · obtain ⟨a₁, hflag, hshape, hbit⟩ := BitmapAllocator.flagRange_ok false
          r.firstFrame_le (hend r List.mem_cons_self htype)
        rw [← hshape.length] at hrest
        obtain ⟨a', heq, hshape', hbit'⟩ := ih hrest
        rw [if_pos htype, show a.flagRange (r.base / PAGE_SIZE)
          ((r.base + r.length) / PAGE_SIZE) false = _ from hflag, ok_bind]
        refine ⟨a', heq, hshape.trans hshape', fun i => ?_⟩
        have hr : bitAt a₁.bitmap i = false ↔ bitAt a.bitmap i = false ∨ r.Clears i := by
          rw [hbit i, BitmapAllocator.flagged, Clears]
          split
          · next hin => simp [htype, hin]
          · next hin => simp [hin]
        simp [hbit' i, hr, or_assoc]
      · obtain ⟨a', heq, hshape, hbit⟩ := ih hrest
        rw [if_neg htype]
        refine ⟨a', heq, hshape, fun i => ?_⟩
        simp [hbit i, Clears, htype]

/-- The loop of `new` changes nothing but bits. -/
theorem clearUsable_shape {regions : List MemoryRegionInfo} :
    ∀ {a a' : BitmapAllocator}, BitmapFrameAllocator.clearUsable regions a = .ok a' →
      BitmapAllocator.SameShape a a' := by
  induction regions with
  | nil =>
      intro a a' h
      cases h
      exact .refl a
  | cons r regions ih =>
      intro a a' h
      rw [BitmapFrameAllocator.clearUsable] at h
      split at h
      · obtain ⟨⟨answer, a₁⟩, hflag, h⟩ := bind_eq_ok.mp h
        cases answer with
        | error e => cases h
        | ok _ => exact (BitmapAllocator.flagRange_shape hflag).trans (ih h)
      · exact ih h

/-- A Usable region that a bitmap of `size` bytes takes. -/
def Fits (size : Nat) (r : MemoryRegionInfo) : Prop :=
  if r.firstFrame < r.endFrame then r.endFrame ≤ size * 8 else r.endFrame ≤ size * 64

/-- **THE LOOP OF `new` RETURNS** exactly when every Usable region fits. -/
theorem clearUsable_returns_iff {regions : List MemoryRegionInfo} :
    ∀ {a : BitmapAllocator},
      (∃ a', BitmapFrameAllocator.clearUsable regions a = .ok a')
        ↔ ∀ r ∈ regions, r.type = .usable → Fits a.bitmap.length r := by
  induction regions with
  | nil =>
      intro a
      exact iff_of_true ⟨a, rfl⟩ nofun
  | cons r regions ih =>
      intro a
      rw [BitmapFrameAllocator.clearUsable, List.forall_mem_cons]
      by_cases htype : r.type = .usable
      · rw [if_pos htype]
        have hflag := BitmapAllocator.flagRange_returns_iff (a := a) false r.firstFrame_le
        constructor
        · rintro ⟨a', h⟩
          obtain ⟨⟨answer, a₁⟩, heq, h⟩ := bind_eq_ok.mp h
          cases answer with
          | error e => cases h
          | ok _ =>
              have hlen := (BitmapAllocator.flagRange_shape heq).length
              exact ⟨fun _ => hflag.mp ⟨a₁, heq⟩, hlen ▸ ih.mp ⟨a', h⟩⟩
        · rintro ⟨hfits, hrest⟩
          obtain ⟨a₁, heq⟩ := hflag.mpr (hfits htype)
          have hlen := (BitmapAllocator.flagRange_shape heq).length
          obtain ⟨a', h⟩ := ih.mpr (hlen.symm ▸ hrest)
          refine ⟨a', ?_⟩
          rw [show a.flagRange (r.base / PAGE_SIZE) ((r.base + r.length) / PAGE_SIZE) false
            = _ from heq, ok_bind]
          exact h
      · rw [if_neg htype, ih]
        exact ⟨fun h => ⟨fun hu => absurd hu htype, h⟩, fun h => h.2⟩

/-- The bits below the capacity mirror the memory map. -/
def Mirrors (a : BitmapAllocator) (regions : List MemoryRegionInfo) (size : Nat) : Prop :=
  ∀ f < 8 * size, bitAt a.bitmap f = false ↔ ∃ r ∈ regions, r.Holds f

/-- Every Usable region that is not empty starts and ends on a multiple of
    eight frames. -/
def WholeBytes (regions : List MemoryRegionInfo) : Prop :=
  ∀ r ∈ regions, r.type = .usable → 0 < r.length →
    r.base % (8 * PAGE_SIZE) = 0 ∧ (r.base + r.length) % (8 * PAGE_SIZE) = 0

/-- What Limine promises about the Usable regions. -/
structure UsableRegions (regions : List MemoryRegionInfo) : Prop where
  aligned : ∀ r ∈ regions, r.type = .usable →
    r.base % PAGE_SIZE = 0 ∧ r.length % PAGE_SIZE = 0
  separate : (regions.filter fun r => r.type = .usable).Pairwise Separate

/-- A frame lies in one Usable region only. -/
theorem UsableRegions.unique {regions : List MemoryRegionInfo}
    (h : UsableRegions regions) {r q : MemoryRegionInfo} {f : Nat} (hr : r ∈ regions)
    (hq : q ∈ regions) (hrf : r.Holds f) (hqf : q.Holds f) : r = q := by
  obtain ⟨hrt, hr₁, hr₂⟩ := hrf
  obtain ⟨hqt, hq₁, hq₂⟩ := hqf
  by_contra hne
  have hap := h.separate.forall
    (List.mem_filter.mpr ⟨hr, by simpa using hrt⟩)
    (List.mem_filter.mpr ⟨hq, by simpa using hqt⟩) hne
  simp only [firstFrame, endFrame, PAGE_SIZE] at hr₁ hr₂ hq₁ hq₂
  rcases hap with hle | hle
  · omega
  · omega

/-- The map is mirrored once the cleared bits are those of whole bytes. -/
theorem mirrors_iff {regions : List MemoryRegionInfo} (hreg : UsableRegions regions)
    (hend : ∀ r ∈ regions, r.type = .usable → r.endFrame ≤ 8 * size)
    (hbit : ∀ i < 8 * size, bitAt a.bitmap i = false ↔ ∃ r ∈ regions, r.Clears i) :
    Mirrors a regions size ↔ WholeBytes regions := by
  constructor
  · intro hm r hr htype hlen
    obtain ⟨hbase, hlength⟩ := hreg.aligned r hr htype
    have hle := hend r hr htype
    -- a frame of `r` that reads as clear was cleared as a frame of `r`
    have hown : ∀ f, r.Holds f → r.Clears f := by
      intro f hf
      obtain ⟨-, -, hlt⟩ := id hf
      obtain ⟨q, hq, hclears⟩ := (hbit f (by omega)).mp
        ((hm f (by omega)).mpr ⟨r, hr, hf⟩)
      rw [hreg.unique hr hq hf hclears.holds]
      exact hclears
    have hlt : r.firstFrame < r.endFrame := by
      simp only [firstFrame, endFrame, PAGE_SIZE] at *
      omega
    obtain ⟨-, -, hfirst, -⟩ := hown r.firstFrame ⟨htype, by omega, hlt⟩
    obtain ⟨-, -, -, hlast⟩ := hown (r.endFrame - 1) ⟨htype, by omega, by omega⟩
    simp only [firstFrame, endFrame, PAGE_SIZE] at *
    omega
  · intro hw f hf
    rw [hbit f hf]
    constructor
    · rintro ⟨r, hr, hclears⟩
      exact ⟨r, hr, hclears.holds⟩
    · rintro ⟨r, hr, hholds⟩
      obtain ⟨htype, hle, hlt⟩ := id hholds
      have hlen : 0 < r.length := by
        simp only [firstFrame, endFrame, PAGE_SIZE] at hle hlt
        omega
      obtain ⟨hlo, hhi⟩ := hw r hr htype hlen
      refine ⟨r, hr, clears_of_bytes ?_ ?_ hholds⟩
      · simp only [firstFrame, PAGE_SIZE] at *
        omega
      · simp only [endFrame, PAGE_SIZE] at *
        omega

/-- `BitmapFrameAllocator::new`, with every bit it leaves. -/
theorem frameBitmapNew_ok (bitmapSize : Nat) (la : LinearFrameAllocator)
    (pt : RecursivePageTable) (regions : List MemoryRegionInfo)
    (hend : ∀ r ∈ regions, r.type = .usable → r.endFrame ≤ 8 * bitmapSize)
    (hroom : la.cursor.addr + sizeInPages bitmapSize * PAGE_SIZE < 2 ^ 52)
    (hcan : IsCanonical (la.cursor.addr + pt.internalOffset)) :
    ∃ fa la', BitmapFrameAllocator.new bitmapSize la pt regions = .ok (.ok fa, la')
      ∧ ∀ i < 8 * bitmapSize,
        bitAt fa.bits.bitmap i = false ↔ ∃ r ∈ regions, r.Clears i := by
  obtain ⟨a, la', hnew⟩ := bitmapNew_total true hroom hcan
  obtain ⟨a₁, ha, hbuilt⟩ := bitmapNew_cases hnew
  cases ha
  obtain ⟨a', hclear, hshape, hbit⟩ :=
    clearUsable_ok (hbuilt.length.symm ▸ Nat.mul_comm 8 bitmapSize ▸ hend)
  refine ⟨⟨a'⟩, la', ?_, fun i hi => ?_⟩
  · rw [BitmapFrameAllocator.new, hnew, andThen_ok, hclear]
    rfl
  · rw [hbit i, hbuilt.bitAt (by omega)]
    simp

/-- `BitmapFrameAllocator::new` returns exactly when every Usable region fits. -/
theorem frameBitmapNew_returns_iff {size : Nat} {la : LinearFrameAllocator}
    {pt : RecursivePageTable} {regions : List MemoryRegionInfo}
    (hroom : la.cursor.addr + sizeInPages size * PAGE_SIZE < 2 ^ 52)
    (hcan : IsCanonical (la.cursor.addr + pt.internalOffset)) :
    (∃ out, BitmapFrameAllocator.new size la pt regions = .ok out)
      ↔ ∀ r ∈ regions, r.type = .usable → Fits size r := by
  obtain ⟨a, la', hnew⟩ := bitmapNew_total true hroom hcan
  obtain ⟨_, ha, hbuilt⟩ := bitmapNew_cases hnew
  cases ha
  rw [BitmapFrameAllocator.new, hnew, andThen_ok, ← hbuilt.length, ← clearUsable_returns_iff]
  constructor
  · rintro ⟨out, h⟩
    obtain ⟨a', hclear, -⟩ := bind_eq_ok.mp h
    exact ⟨a', hclear⟩
  · rintro ⟨a', hclear⟩
    exact ⟨_, bind_eq_ok.mpr ⟨a', hclear, rfl⟩⟩

/-- **THE FRAME BITMAP, EXACTLY.**  With room in the linear allocator
    `BitmapFrameAllocator::new` succeeds, and the bitmap mirrors the memory map
    if and only if every Usable region consists of whole bytes. -/
theorem new_mirrors_iff (bitmapSize : Nat) (la : LinearFrameAllocator)
    (pt : RecursivePageTable) (regions : List MemoryRegionInfo)
    (hreg : UsableRegions regions)
    (hend : ∀ r ∈ regions, r.type = .usable → r.endFrame ≤ 8 * bitmapSize)
    (hroom : la.cursor.addr + sizeInPages bitmapSize * PAGE_SIZE < 2 ^ 52)
    (hcan : IsCanonical (la.cursor.addr + pt.internalOffset)) :
    ∃ fa la', BitmapFrameAllocator.new bitmapSize la pt regions = .ok (.ok fa, la')
      ∧ (Mirrors fa.bits regions bitmapSize ↔ WholeBytes regions) := by
  obtain ⟨fa, la', hnew, hbit⟩ := frameBitmapNew_ok bitmapSize la pt regions hend hroom hcan
  exact ⟨fa, la', hnew, mirrors_iff hreg hend hbit⟩

/-- Where Limine's direct map has the first frame of `sampleLinear`. -/
def sampleDirect : VirtAddr := ⟨0xFFFF800000100000, by decide⟩

/-- A page table for that direct map. -/
def samplePageTable : RecursivePageTable := ⟨sampleDirect, 0xFFFF800000000000⟩

/-- A Usable region of sixteen frames from frame 8 on, behind a reserved one. -/
def byteRegions : List MemoryRegionInfo :=
  [⟨0, 0x8000, .reserved, by decide⟩, ⟨0x8000, 0x10000, .usable, by decide⟩]

theorem new_mirrors_iff_sample :
    ∃ fa la', BitmapFrameAllocator.new 3 sampleLinear samplePageTable byteRegions
        = .ok (.ok fa, la')
      ∧ Mirrors fa.bits byteRegions 3 := by
  obtain ⟨fa, la', hnew, hiff⟩ := new_mirrors_iff 3 sampleLinear samplePageTable
    byteRegions ⟨by decide, List.pairwise_singleton _ _⟩ (by decide) (by decide)
    (by decide)
  exact ⟨fa, la', hnew, hiff.mpr (by unfold WholeBytes; decide)⟩

/-- One Usable frame, frame 1. -/
def oneFrame : List MemoryRegionInfo := [⟨0x1000, 0x1000, .usable, by decide⟩]

theorem new_loses_usable_frame :
    ∃ fa la', BitmapFrameAllocator.new 1 sampleLinear samplePageTable oneFrame
        = .ok (.ok fa, la')
      ∧ ¬ Mirrors fa.bits oneFrame 1 := by
  have hreg : UsableRegions oneFrame := ⟨by decide, List.pairwise_singleton _ _⟩
  obtain ⟨fa, la', hnew, hbit⟩ := frameBitmapNew_ok 1 sampleLinear samplePageTable
    oneFrame (by decide) (by decide) (by decide)
  refine ⟨fa, la', hnew, ?_⟩
  rw [mirrors_iff hreg (by decide) hbit, WholeBytes]
  decide

/-! ## The frames taken at boot -/

/-- A call of the linear allocator. -/
inductive BootRequest where
  | alloc
  | allocContiguous (pages : Nat)
deriving DecidableEq, Repr

namespace BootRequest

/-- The number of frames asked for. -/
def pages : BootRequest → Nat
  | .alloc => 1
  | .allocContiguous pages => pages

/-- Perform the call. -/
def perform (la : LinearFrameAllocator) :
    BootRequest → Fallible MemoryError LinearFrameAllocator PhysAddr
  | .alloc => la.alloc
  | .allocContiguous pages => la.allocContiguous pages

end BootRequest

/-- The ranges of frames handed out by a sequence of calls, as address and
    number of frames. -/
def bootRun : List BootRequest → LinearFrameAllocator →
    Panics (List (Nat × Nat) × LinearFrameAllocator)
  | [], la => return ([], la)
  | request :: requests, la => do
      let (r, la₁) ← request.perform la
      let (ranges, la') ← bootRun requests la₁
      match r with
      | .error _ => return (ranges, la')
      | .ok p => return ((p.addr, request.pages) :: ranges, la')

/-- The number of frames a sequence of calls asks for. -/
def bootPages (requests : List BootRequest) : Nat :=
  (requests.map BootRequest.pages).sum

/-- The byte lies in the range of frames. -/
def InFrames (p : Nat × Nat) (x : Nat) : Prop := p.1 ≤ x ∧ x < p.1 + p.2 * PAGE_SIZE

/-- The ranges are page aligned, follow one another, and cover `lo .. hi`. -/
structure Tiles (ranges : List (Nat × Nat)) (lo hi : Nat) : Prop where
  aligned : ∀ p ∈ ranges, p.1 % PAGE_SIZE = 0
  inside : ∀ p ∈ ranges, lo ≤ p.1 ∧ p.1 + p.2 * PAGE_SIZE ≤ hi
  ordered : ranges.Pairwise fun p q => p.1 + p.2 * PAGE_SIZE ≤ q.1
  cover : ∀ x, (lo ≤ x ∧ x < hi) ↔ ∃ p ∈ ranges, InFrames p x

theorem perform_ok {la : LinearFrameAllocator} (request : BootRequest)
    (hfit : la.cursor.addr + request.pages * PAGE_SIZE < 2 ^ 52) :
    request.perform la = .ok (.ok la.cursor, ⟨⟨_, hfit⟩⟩) := by
  cases request with
  | alloc =>
      exact LinearFrameAllocator.alloc_eq_ok.mpr ⟨rfl, by simp [BootRequest.pages]⟩
  | allocContiguous pages =>
      exact LinearFrameAllocator.allocContiguous_eq_ok.mpr ⟨rfl, rfl⟩

/-- **TILING.**  A sequence of calls that stays below `2 ^ 52` returns, and its
    ranges tile the span from the first cursor to the last. -/
theorem bootRun_tiles {requests : List BootRequest} :
    ∀ (la : LinearFrameAllocator), la.cursor.addr % PAGE_SIZE = 0 →
      la.cursor.addr + bootPages requests * PAGE_SIZE < 2 ^ 52 →
      ∃ ranges la', bootRun requests la = .ok (ranges, la')
        ∧ la'.cursor.addr = la.cursor.addr + bootPages requests * PAGE_SIZE
        ∧ Tiles ranges la.cursor.addr la'.cursor.addr := by
  induction requests with
  | nil =>
      intro la _ _
      refine ⟨[], la, rfl, by simp [bootPages], ⟨nofun, nofun, List.Pairwise.nil, ?_⟩⟩
      intro x
      simp only [List.not_mem_nil, false_and, exists_false, iff_false]
      omega
  | cons request requests ih =>
      intro la hal hfit
      -- the first range starts at the cursor; the others tile what is behind it
      have hsum : bootPages (request :: requests) * PAGE_SIZE
          = request.pages * PAGE_SIZE + bootPages requests * PAGE_SIZE := by
        simp [bootPages, Nat.add_mul]
      rw [hsum] at hfit ⊢
      have hfit₁ : la.cursor.addr + request.pages * PAGE_SIZE < 2 ^ 52 := by omega
      have hal₁ : (la.cursor.addr + request.pages * PAGE_SIZE) % PAGE_SIZE = 0 := by
        rw [Nat.add_mul_mod_self_right]
        exact hal
      obtain ⟨ranges, la', hrun, hcur, htiles⟩ := ih ⟨⟨_, hfit₁⟩⟩ hal₁
        (show la.cursor.addr + request.pages * PAGE_SIZE
          + bootPages requests * PAGE_SIZE < 2 ^ 52 by omega)
      dsimp only at hcur htiles
      refine ⟨(la.cursor.addr, request.pages) :: ranges, la', ?_, by omega, ?_, ?_, ?_, ?_⟩
      · rw [bootRun, perform_ok request hfit₁, ok_bind]
        dsimp only
        rw [hrun]
        rfl
      · exact List.forall_mem_cons.mpr ⟨hal, htiles.aligned⟩
      · refine List.forall_mem_cons.mpr
          ⟨⟨Nat.le_refl _, show la.cursor.addr + request.pages * PAGE_SIZE ≤ _ by omega⟩,
            fun p hp => ?_⟩
        obtain ⟨hlo, hhi⟩ := htiles.inside p hp
        exact ⟨by omega, hhi⟩
      · exact List.pairwise_cons.mpr ⟨fun p hp => (htiles.inside p hp).1, htiles.ordered⟩
      · intro x
        rw [List.exists_mem_cons_iff, ← htiles.cover x, InFrames]
        dsimp only
        omega

/-- The bits of the frames from `lo` to `hi`, after the range was flagged. -/
theorem flagFrames_ok {ranges : List (Nat × Nat)} {lo hi : Nat}
    (htiles : Tiles ranges lo hi) (hle : lo ≤ hi)
    (hcap : hi / PAGE_SIZE ≤ 8 * a.bitmap.length) :
    ∃ a', a.flagRange (lo / PAGE_SIZE) (hi / PAGE_SIZE) true = .ok (.ok (), a')
      ∧ (∀ p ∈ ranges, ∀ j < p.2, bitAt a'.bitmap (p.1 / PAGE_SIZE + j) = true)
      ∧ ∀ i, ¬ (lo / PAGE_SIZE ≤ i ∧ i < hi / PAGE_SIZE) →
        bitAt a'.bitmap i = bitAt a.bitmap i := by
  obtain ⟨a', heq, -, hbit⟩ := BitmapAllocator.flagRange_ok true
    (Nat.div_le_div_right hle) (by omega : hi / PAGE_SIZE ≤ a.bitmap.length * 8)
  refine ⟨a', heq, ?_, ?_⟩
  · intro p hp j hj
    obtain ⟨hplo, hphi⟩ := htiles.inside p hp
    have hal := htiles.aligned p hp
    have hframes : (p.1 + p.2 * PAGE_SIZE) / PAGE_SIZE = p.1 / PAGE_SIZE + p.2 :=
      Nat.add_mul_div_right _ _ (by decide)
    have h₁ : lo / PAGE_SIZE ≤ p.1 / PAGE_SIZE := Nat.div_le_div_right hplo
    have h₂ := Nat.div_le_div_right (c := PAGE_SIZE) hphi
    rw [hbit, BitmapAllocator.flagged]
    split
    · rfl
    · rw [decide_eq_true (by omega)]
      simp
  · intro i hi'
    rw [hbit, BitmapAllocator.flagged, if_neg (by omega), decide_eq_false hi']
    simp

/-- **BOOT FRAMES ARE NOT REISSUED.**  The ranges handed out by the linear
    allocator tile `[base, cursor)`, and flagging that span sets the bit of
    every frame handed out and changes no bit outside the span. -/
theorem bootFrames_flagged (base : PhysAddr) (requests : List BootRequest)
    (hal : base.addr % PAGE_SIZE = 0)
    (hfit : base.addr + bootPages requests * PAGE_SIZE < 2 ^ 52) :
    ∃ ranges la', bootRun requests ⟨base⟩ = .ok (ranges, la')
      ∧ Tiles ranges base.addr la'.cursor.addr
      ∧ ∀ a : BitmapAllocator, la'.cursor.addr / PAGE_SIZE ≤ 8 * a.bitmap.length →
        ∃ a', a.flagRange (base.addr / PAGE_SIZE) (la'.cursor.addr / PAGE_SIZE) true
            = .ok (.ok (), a')
          ∧ (∀ p ∈ ranges, ∀ j < p.2, bitAt a'.bitmap (p.1 / PAGE_SIZE + j) = true)
          ∧ ∀ i, ¬ (base.addr / PAGE_SIZE ≤ i ∧ i < la'.cursor.addr / PAGE_SIZE) →
            bitAt a'.bitmap i = bitAt a.bitmap i := by
  obtain ⟨ranges, la', hrun, hcur, htiles⟩ := bootRun_tiles ⟨base⟩ hal hfit
  refine ⟨ranges, la', hrun, htiles, fun a hcap => ?_⟩
  exact flagFrames_ok htiles (by rw [hcur]; exact Nat.le_add_right _ _) hcap

/-- A bitmap of 1600 frames, all free. -/
def sampleFrames : BitmapAllocator where
  ptr := samplePtr
  bitmap := List.replicate 200 0#8
  size := 1600
  lastAllocated := 0
  size_eq := by rw [List.length_replicate]
  bounded := by rw [List.length_replicate]; decide
  cursor := cursor_zero

/-- The heap, a table, and a bitmap of two pages, from 1 MiB on. -/
theorem bootFrames_flagged_sample :
    ∃ ranges la' a', bootRun [.allocContiguous 1024, .alloc, .allocContiguous 2] sampleLinear
        = .ok (ranges, la')
      ∧ Tiles ranges 0x100000 la'.cursor.addr
      ∧ sampleFrames.flagRange 256 1283 true = .ok (.ok (), a')
      ∧ (∀ p ∈ ranges, ∀ j < p.2, bitAt a'.bitmap (p.1 / PAGE_SIZE + j) = true)
      ∧ bitAt a'.bitmap 255 = bitAt sampleFrames.bitmap 255 := by
  obtain ⟨ranges, la', hrun, htiles, hflag⟩ := bootFrames_flagged ⟨0x100000, by decide⟩
    [.allocContiguous 1024, .alloc, .allocContiguous 2] (by decide) (by decide)
  have hcursor : la'.cursor.addr / PAGE_SIZE = 1283 := by
    have hend : (bootRun [.allocContiguous 1024, .alloc, .allocContiguous 2] sampleLinear).map
        (fun out => out.2.cursor.addr / PAGE_SIZE) = .ok 1283 := by decide +kernel
    exact Except.ok.inj ((congrArg (Except.map _) hrun).symm.trans hend)
  obtain ⟨a', hok, hset, hkept⟩ := hflag sampleFrames (by
    rw [hcursor, sampleFrames, List.length_replicate]
    decide)
  rw [hcursor] at hok hkept
  exact ⟨ranges, la', a', hrun, htiles, hok, hset, hkept 255 (by decide)⟩

end KermolFrameBitmap
