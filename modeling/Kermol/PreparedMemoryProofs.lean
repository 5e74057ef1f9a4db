import Kermol.InitMemoryProofs

/-! # The state at `load`

    Behind the heap the linear allocator hands out the level-4 table, the
    tables of the early mappings, the two bitmaps, and the tables of the heap.
    `Prepared` says so, and `prepareMemory_cases` that every `init_memory` that
    gets to `load` is in such a state.  `prepareMemory_total` says when it gets
    there. -/

namespace KermolPrepared

open RustEffect X86Paging KermolFrameAllocator KermolPageTable KermolBitmap
open KermolPageTree KermolFrameBitmap KermolController KermolBootTables KermolInitMemory

/-! ## The stack and the bitmaps -/

section Stack

variable {b : BootInfo} {pt : RecursivePageTable} {root : PhysAddr}
  {s s' : PagingState LinearFrameAllocator} {touched : List Nat} {On : Nat → Nat → Prop}

theorem virtSub_eq_ok {v w : VirtAddr} {n : Nat} (h : v.sub n = .ok w) :
    w.addr = v.addr - n := by
  rw [VirtAddr.sub] at h
  split at h
  · exact VirtAddr.new_eq_ok.mp h
  · cases h

/-- **`remap_stack` AT BOOT.**  The guard page loses its frame, and no other
    page changes its own. -/
theorem remapStack_boot {entry : VirtAddr} (hentry : entry.addr = b.entryStackPointer)
    (hstack : b.StackOutside) (hb : BootState pt root s touched On)
    (h : remapStack pt entry s = .ok (.ok (), s')) :
    BootState pt root s' touched (fun w f => w ≠ b.stackTop / PAGE_SIZE ∧ On w f)
      ∧ Grown root 0 s s' := by
  obtain ⟨stackTop, htop, h⟩ := bind_eq_ok.mp h
  obtain ⟨stackBottom, hbottom, h⟩ := bind_eq_ok.mp h
  obtain ⟨_, s₁, hunmap, hloop⟩ := andThen_eq_ok h
  have htop' : stackTop.addr = b.stackTop := by
    rw [VirtAddr.add_eq_ok.mp htop, hentry, BootInfo.stackTop]
  have hbottom' : stackBottom.addr = b.stackTop - STACK_SIZE := by
    rw [virtSub_eq_ok hbottom, htop']
  obtain ⟨hb₁, hgrown₁⟩ := unmap_boot hb (hstack stackTop (Or.inl htop')) (paging_eq_ok hunmap)
  have hloop' := paging_eq_ok hloop
  rw [htop', hbottom'] at hloop'
  rw [VirtAddr.page, htop'] at hb₁
  -- new flags keep the frame of every page of the stack
  refine forEach_ok_invariant (P := fun t => BootState pt root t touched _ ∧ Grown root 0 s t)
    ?_ ⟨hb₁, hgrown₁⟩ hloop'
  rintro page hpage t t' ⟨hbt, hgt⟩ hbody
  obtain ⟨v, hv, hbody⟩ := bind_eq_ok.mp hbody
  have hvout : pageIndex 4 v ≠ RECURSIVE := by
    refine hstack v (Or.inr ?_)
    rw [VirtAddr.new_eq_ok.mp hv]
    exact hpage
  obtain ⟨hbt', hgt'⟩ := updateFlags_boot hbt hvout flagsRw_present hbody
  exact ⟨hbt', hgt.trans hgt'⟩

theorem onAllocator_eq_ok {α : Type} {mem : PhysMem}
    {x : Fallible MemoryError LinearFrameAllocator α} {r : Except MemoryError α}
    (h : onAllocator mem x = .ok (r, s')) : x = .ok (r, s'.alloc) ∧ s'.mem = mem := by
  match x, h with
  | .ok (r', la), h =>
      cases h
      exact ⟨rfl, rfl⟩

/-- A bitmap slice of `size` bytes at physical address `start`. -/
structure SliceAt (pt : RecursivePageTable) (a : BitmapAllocator) (start size : Nat) :
    Prop where
  ptr : a.ptr.addr = start + pt.internalOffset
  length : a.bitmap.length = size

theorem SliceAt.of_shape {a a' : BitmapAllocator} {start size : Nat}
    (h : SliceAt pt a start size) (hshape : BitmapAllocator.SameShape a a') :
    SliceAt pt a' start size :=
  ⟨by rw [hshape.ptr, h.ptr], by rw [hshape.length, h.length]⟩

/-- **THE BITMAPS** lie behind the cursor, the one for the frames first. -/
theorem makeBitmaps_cases {sizeBytes : Nat}
    {maps : BitmapFrameAllocator × VirtualMemoryAllocator}
    (h : makeBitmaps b pt sizeBytes s = .ok (.ok maps, s')) :
    s'.mem = s.mem
      ∧ SliceAt pt maps.1.bits s.alloc.cursor.addr sizeBytes
      ∧ SliceAt pt maps.2.bits (s.alloc.cursor.addr + sizeInPages sizeBytes * PAGE_SIZE)
        (sizeBytes * 2)
      ∧ s'.alloc.cursor.addr = s.alloc.cursor.addr
        + (sizeInPages sizeBytes + sizeInPages (sizeBytes * 2)) * PAGE_SIZE := by
  obtain ⟨frames, s₁, h₁, h⟩ := andThen_eq_ok h
  obtain ⟨virt, s₂, h₂, h⟩ := andThen_eq_ok h
  cases h
  obtain ⟨hframes, hmem₁⟩ := onAllocator_eq_ok h₁
  obtain ⟨hvirt, hmem₂⟩ := onAllocator_eq_ok h₂
  obtain ⟨a, la, hnew, hrest⟩ := andThen_eq_ok hframes
  obtain ⟨a', hclear, hdone⟩ := bind_eq_ok.mp hrest
  cases hdone
  obtain ⟨_, hr, hbuilt⟩ := bitmapNew_cases hnew
  cases hr
  obtain ⟨av, la', hnewv, hdone⟩ := andThen_eq_ok hvirt
  cases hdone
  obtain ⟨_, hrv, hbuiltv⟩ := bitmapNew_cases hnewv
  cases hrv
  have hslice : SliceAt pt a s.alloc.cursor.addr sizeBytes := ⟨hbuilt.ptr, hbuilt.length⟩
  refine ⟨hmem₂.trans hmem₁, hslice.of_shape (clearUsable_shape hclear), ⟨?_, hbuiltv.length⟩,
    ?_⟩
  · rw [hbuiltv.ptr, hbuilt.cursor]
  · rw [hbuiltv.cursor, hbuilt.cursor, Nat.add_mul, Nat.add_assoc]

end Stack

/-! ## The state at `load` -/

/-- What `init_memory` has built when it gets to `load`: the tables fill the
    frames from the end of the heap up to the cursor, but for a gap at
    `bitmaps` where the two bitmaps lie. -/
structure Prepared (b : BootInfo) (root : PhysAddr) (s : PagingState LinearFrameAllocator)
    (bitmaps : Nat) (c : KernelPagingController) : Prop where
  mem : c.mem = s.mem
  boot : BootState c.recPageTable root s ((b.earlyPages ++ b.heapMappings).map Prod.snd)
    (fun w f => b.EarlyOn w f ∨ OnList b.heapMappings w f)
  offset : c.recPageTable.internalOffset = b.hhdm.offset.addr
  start : b.heapEnd % PAGE_SIZE = 0
  bitmapsAligned : bitmaps % PAGE_SIZE = 0
  before : b.heapEnd ≤ bitmaps
  behind : bitmaps + b.bitmapPages * PAGE_SIZE ≤ s.alloc.cursor.addr
  tables_eq : tables root s.mem = framesFrom b.heapEnd bitmaps
    ∪ framesFrom (bitmaps + b.bitmapPages * PAGE_SIZE) s.alloc.cursor.addr
  frames : SliceAt c.recPageTable c.frameAllocator.bits bitmaps b.sizeBytes
  pages : SliceAt c.recPageTable c.virtMemAllocator.bits
    (bitmaps + sizeInPages b.sizeBytes * PAGE_SIZE) (b.sizeBytes * 2)
  aligned : ∀ m ∈ b.earlyPages, m.1 % PAGE_SIZE = 0

section Load

variable {b : BootInfo} {pt : RecursivePageTable}
  {s s' : PagingState LinearFrameAllocator}

/-- What `init_paging` has built when it returns: tables from where the cursor
    was, and the two bitmaps behind them. -/
structure Paged (b : BootInfo) (root : PhysAddr) (s s' : PagingState LinearFrameAllocator)
    (bitmaps : Nat) (pt : RecursivePageTable)
    (maps : BitmapFrameAllocator × VirtualMemoryAllocator) : Prop where
  boot : BootState pt root s' (b.earlyPages.map Prod.snd) b.EarlyOn
  offset : pt.internalOffset = b.hhdm.offset.addr
  tables_eq : tables root s'.mem = framesFrom s.alloc.cursor.addr bitmaps
  start : s.alloc.cursor.addr % PAGE_SIZE = 0
  bitmapsAligned : bitmaps % PAGE_SIZE = 0
  before : s.alloc.cursor.addr ≤ bitmaps
  limit : bitmaps ≤ s.alloc.cursor.addr + (1 + 3 * b.earlyPages.length) * PAGE_SIZE
  behind : s'.alloc.cursor.addr = bitmaps + b.bitmapPages * PAGE_SIZE
  frames : SliceAt pt maps.1.bits bitmaps b.sizeBytes
  pages : SliceAt pt maps.2.bits (bitmaps + sizeInPages b.sizeBytes * PAGE_SIZE)
    (b.sizeBytes * 2)
  aligned : ∀ m ∈ b.earlyPages, m.1 % PAGE_SIZE = 0

/-- The early mappings are those of `map_kernel`, and behind them those of
    `map_misc`. -/
theorem earlyPages_placed {kSect : MemoryRegionInfo} {root : PhysAddr}
    {s₀ s₁ s₂ : PagingState LinearFrameAllocator} (hkernel : kernelRegion b = some kSect)
    (hoff : pt.internalOffset = b.hhdm.offset.addr)
    (hb : BootState pt root s₀ [] fun _ _ => False)
    (h₁ : mapKernel b pt kSect s₀ = .ok (.ok (), s₁))
    (h₂ : mapMisc b pt s₁ = .ok (.ok (), s₂)) :
    Placed pt root b.earlyPages [] (fun _ _ => False) s₀ s₂ := by
  have hp₁ := mapKernel_placed hb h₁
  rw [BootInfo.earlyPages_eq hkernel]
  exact hp₁.append (mapRegions_placed hoff hp₁.boot h₂)

/-- **`init_paging` AT BOOT.** -/
theorem initPaging_cases {entry : VirtAddr} (hentry : entry.addr = b.entryStackPointer)
    (hstack : b.StackOutside) {maps : BitmapFrameAllocator × VirtualMemoryAllocator}
    (h : initPaging b entry s = .ok (.ok (pt, maps), s')) :
    ∃ root bitmaps, Paged b root s s' bitmaps pt maps := by
  obtain ⟨⟨pt', s₀⟩, hnew, h⟩ := bind_eq_ok.mp h
  dsimp only at h
  cases hkernel : kernelRegion b with
  | none =>
      rw [hkernel] at h
      cases h
  | some kSect =>
      rw [hkernel] at h
      obtain ⟨_, s₁, h₁, h⟩ := andThen_eq_ok h
      obtain ⟨_, s₂, h₂, h⟩ := andThen_eq_ok h
      obtain ⟨_, s₃, h₃, h⟩ := andThen_eq_ok h
      cases hhighest : highestValidRegion b with
      | none =>
          rw [hhighest] at h
          cases h
      | some highest =>
          rw [hhighest] at h
          obtain ⟨maps', s₄, h₄, h⟩ := andThen_eq_ok h
          cases h
          obtain ⟨root, hb₀, hoff, htables₀, hal, hcur₀⟩ := new_boot hnew
          have hearly := earlyPages_placed hkernel hoff hb₀ h₁ h₂
          obtain ⟨hb₃, hgrown₃⟩ := remapStack_boot hentry hstack hearly.boot h₃
          rw [← BootInfo.sizeBytes_eq hhighest] at h₄
          obtain ⟨hmem₄, hslice, hslice', hcur₄⟩ := makeBitmaps_cases h₄
          have hgrown := hearly.grown.trans hgrown₃
          have hle := hgrown.le
          have hbound := hgrown.bound
          have hlimit : s₃.alloc.cursor.addr
              ≤ s.alloc.cursor.addr + (1 + 3 * b.earlyPages.length) * PAGE_SIZE := by
            simp only [PAGE_SIZE] at *
            omega
          refine ⟨root, s₃.alloc.cursor.addr, ⟨?_, hoff, ?_, hal, hb₃.cursor, by omega, hlimit,
            hcur₄, hslice, hslice', hearly.aligned⟩⟩
          -- the bitmaps only move the cursor: the tables stay as they are
          · have hadvance := hb₃.advance s'.alloc (by omega) (by
              rw [hcur₄, Nat.add_mul_mod_self_right]
              exact hb₃.cursor)
            rw [← hmem₄] at hadvance
            refine hadvance.congr (fun a => by simp) fun w f => ?_
            simp [BootInfo.EarlyOn]
          · rw [hmem₄, hgrown.tables_eq, htables₀, framesFrom_append (by omega) hle]

/-- **`init_memory` UP TO `load`.** -/
theorem prepareMemory_cases {mem : PhysMem} {c : KernelPagingController} {heapVirt : VirtAddr}
    (hstack : b.StackOutside) (h : prepareMemory b mem = .ok (.ok (c, heapVirt))) :
    ∃ root s bitmaps, Prepared b root s bitmaps c := by
  rw [prepareMemory] at h
  cases hregion : allocatorRegion b with
  | none =>
      rw [hregion] at h
      cases h
  | some region =>
      rw [hregion] at h
      obtain ⟨⟨answer, s⟩, h, hanswer⟩ := bind_eq_ok.mp h
      cases hanswer
      have hbase := BootInfo.allocatorBase_eq hregion
      rw [prepareIn] at h
      obtain ⟨physBase, -, h⟩ := bind_eq_ok.mp h
      obtain ⟨base, hvbase, h⟩ := bind_eq_ok.mp h
      obtain ⟨virtBase, hvirtBase, h⟩ := bind_eq_ok.mp h
      obtain ⟨start, hstart, h⟩ := bind_eq_ok.mp h
      obtain ⟨heapPhys, s₀, hheap, h⟩ := andThen_eq_ok h
      obtain ⟨entry, hentry, h⟩ := bind_eq_ok.mp h
      obtain ⟨⟨pt, maps⟩, s₁, hinit, h⟩ := andThen_eq_ok h
      dsimp only at h
      obtain ⟨heapBase, hheapBase, h⟩ := bind_eq_ok.mp h
      obtain ⟨heapVirt', hheapVirt, h⟩ := bind_eq_ok.mp h
      obtain ⟨_, s₂, hmap, h⟩ := andThen_eq_ok h
      obtain ⟨⟨answer, bits⟩, hflag, h⟩ := bind_eq_ok.mp h
      cases answer with
      | error e => cases h
      | ok _ =>
          cases h
          obtain ⟨hheap, -⟩ := onAllocator_eq_ok hheap
          obtain ⟨hphys, hcur₀⟩ := LinearFrameAllocator.allocContiguous_eq_ok.mp hheap
          cases hphys
          have hstart' : start.addr = b.allocatorBase := by
            rw [PhysAddr.new_eq_ok.mp hstart, VirtAddr.add_eq_ok.mp hvirtBase,
              VirtAddr.new_eq_ok.mp hvbase, Nat.add_sub_cancel, hbase]
          have hcur₀' : s₀.alloc.cursor.addr = b.heapEnd := by
            rw [hcur₀, BootInfo.heapEnd, ← hstart']
            rfl
          obtain ⟨root, bitmaps, hpaged⟩ :=
            initPaging_cases (VirtAddr.new_eq_ok.mp hentry) hstack hinit
          have hplaced := mapContiguous_placed (by decide) hpaged.boot (paging_eq_ok hmap)
          rw [hstart', VirtAddr.add_eq_ok.mp hheapVirt, VirtAddr.new_eq_ok.mp hheapBase, hstart',
            hpaged.offset] at hplaced
          have hgrown := hplaced.grown.tables_eq
          rw [hpaged.tables_eq, hcur₀', hpaged.behind] at hgrown
          refine ⟨root, s, bitmaps, ⟨rfl, ?_, hpaged.offset, ?_, hpaged.bitmapsAligned, ?_, ?_,
            hgrown, hpaged.frames.of_shape (BitmapAllocator.flagRange_shape hflag),
            hpaged.pages, hpaged.aligned⟩⟩
          · refine hplaced.boot.congr (fun a => ?_) fun w f => Iff.rfl
            simp [BootInfo.heapMappings, or_comm]
          · rw [← hcur₀']
            exact hpaged.start
          · rw [← hcur₀']
            exact hpaged.before
          · rw [← hpaged.behind]
            exact hplaced.grown.le

end Load

section Frames

variable {b : BootInfo} {root : PhysAddr} {s : PagingState LinearFrameAllocator}
  {bitmaps : Nat} {c : KernelPagingController}

namespace Prepared

/-- **THE CURSOR AT `load`.**  Every frame between the heap and the cursor is a
    table or belongs to a bitmap. -/
theorem cursor_eq (hp : Prepared b root s bitmaps c) :
    s.alloc.cursor.addr = b.heapEnd + b.bootFrames * PAGE_SIZE := by
  have hstart := hp.start
  have hbitmaps := hp.bitmapsAligned
  have hcursor := hp.boot.cursor
  have hbefore := hp.before
  have hbehind := hp.behind
  have hal : (bitmaps + b.bitmapPages * PAGE_SIZE) % PAGE_SIZE = 0 := by
    rw [Nat.add_mul_mod_self_right]
    exact hbitmaps
  obtain ⟨k₁, hk₁⟩ : ∃ k, bitmaps = b.heapEnd + k * PAGE_SIZE :=
    ⟨(bitmaps - b.heapEnd) / PAGE_SIZE, by simp only [PAGE_SIZE] at *; omega⟩
  obtain ⟨k₂, hk₂⟩ : ∃ k, s.alloc.cursor.addr
      = bitmaps + b.bitmapPages * PAGE_SIZE + k * PAGE_SIZE :=
    ⟨(s.alloc.cursor.addr - (bitmaps + b.bitmapPages * PAGE_SIZE)) / PAGE_SIZE, by
      simp only [PAGE_SIZE] at *; omega⟩
  -- the tables are counted twice: by the blocks they stand for, and by their frames
  have hcard := tables_ncard hp.boot
  have hdisjoint : Disjoint (framesFrom b.heapEnd bitmaps)
      (framesFrom (bitmaps + b.bitmapPages * PAGE_SIZE) s.alloc.cursor.addr) := by
    rw [Set.disjoint_left]
    rintro n ⟨-, hlt, -⟩ ⟨hge, -, -⟩
    omega
  rw [hp.tables_eq, Set.ncard_union_eq hdisjoint (framesFrom_finite _ _)
    (framesFrom_finite _ _)] at hcard
  rw [hk₂, framesFrom_ncard hal, hk₁, framesFrom_ncard hstart] at hcard
  rw [hk₂, hk₁, BootInfo.bootFrames]
  unfold PAGE_SIZE
  omega

theorem tableFrames_eq (hp : Prepared b root s bitmaps c) :
    c.tableFrames = tables root s.mem := by
  rw [KernelPagingController.tableFrames, hp.boot.wf.frameOf_lvl4, hp.mem]
  rfl

end Prepared

end Frames

/-! ## When `load` is reached -/

/-- The stack is mapped among the early pages, and so is the guard page behind
    it. -/
structure StackOk (b : BootInfo) : Prop where
  entry : IsCanonical b.entryStackPointer
  top : IsCanonical b.stackTop
  size : STACK_SIZE ≤ b.stackTop
  bottom : IsCanonical (b.stackTop - STACK_SIZE)
  guard : ∃ f, OnList b.earlyPages (b.stackTop / PAGE_SIZE) f
  stack : ∀ a ∈ stepBy (b.stackTop - STACK_SIZE) b.stackTop,
    IsCanonical a ∧ ∃ f, b.EarlyOn (a / PAGE_SIZE) f

/-- How far the cursor can get, if no two pages share a table. -/
def bootLimit (b : BootInfo) : Nat :=
  b.heapEnd + (1 + 3 * b.earlyPages.length + b.bitmapPages + 3 * heapPages) * PAGE_SIZE

/-- A memory map on which `init_memory` gets to `load`. -/
structure Bootable (b : BootInfo) (region kSect : MemoryRegionInfo) : Prop where
  allocator : allocatorRegion b = some region
  kernel : kernelRegion b = some kSect
  highest : (highestValidRegion b).isSome
  aligned : region.base % PAGE_SIZE = 0
  image : ImageOk b kSect
  regions : ∀ r ∈ b.rammapEntries, (miscFlags r.type).isSome → RegionOk b r
  mappable : ∀ m ∈ b.earlyPages ++ b.heapMappings, Mappable m
  distinct : ((b.earlyPages ++ b.heapMappings).map fun m => m.2 / PAGE_SIZE).Nodup
  outside : b.StackOutside
  stack : StackOk b
  usable : ∀ r ∈ b.rammapEntries, r.type = .usable → r.endFrame ≤ 8 * b.sizeBytes
  room : Room b.hhdm.offset.addr (bootLimit b)
  capacity : bootLimit b / PAGE_SIZE ≤ b.sizeBytes * 8

section Reached

variable {b : BootInfo} {region kSect : MemoryRegionInfo} {pt : RecursivePageTable}
  {root : PhysAddr} {s : PagingState LinearFrameAllocator} {touched : List Nat}

/-- **`remap_stack` RETURNS `Ok`.** -/
theorem remapStack_total (hout : b.StackOutside) (hstack : StackOk b)
    (hb : BootState pt root s touched (OnList b.earlyPages)) :
    ∃ s', remapStack pt ⟨b.entryStackPointer, hstack.entry⟩ s = .ok (.ok (), s') := by
  have htop : VirtAddr.add ⟨b.entryStackPointer, hstack.entry⟩ 16 = .ok ⟨_, hstack.top⟩ :=
    VirtAddr.add_eq_ok.mpr rfl
  have hbottom : VirtAddr.sub ⟨_, hstack.top⟩ STACK_SIZE = .ok ⟨_, hstack.bottom⟩ := by
    rw [VirtAddr.sub, if_pos hstack.size]
    exact VirtAddr.new_eq_ok.mpr rfl
  have hguard := hout ⟨_, hstack.top⟩ (Or.inl rfl)
  obtain ⟨f, hon⟩ := hstack.guard
  obtain ⟨s₁, hunmap⟩ := unmap_total hb hguard hon
  obtain ⟨hb₁, -⟩ := unmap_boot hb hguard hunmap
  obtain ⟨s', hloop⟩ : ∃ s', forEach (fun page s => show Panics _ from do
        let v ← VirtAddr.new page
        pt.updateFlags v flagsRw s) (stepBy (b.stackTop - STACK_SIZE) b.stackTop) s₁
      = .ok (.ok (), s') := by
    refine forEach_total (P := fun t => BootState pt root t touched b.EarlyOn) ?_ hb₁
    intro page hpage t hbt
    obtain ⟨hcan, f, hon⟩ := hstack.stack page hpage
    have hv := hout ⟨page, hcan⟩ (Or.inr hpage)
    have hnew : VirtAddr.new page = .ok ⟨page, hcan⟩ := VirtAddr.new_eq_ok.mpr rfl
    obtain ⟨t', ht'⟩ := updateFlags_total flagsRw hbt hv hon
    refine ⟨t', ?_, (updateFlags_boot hbt hv flagsRw_present ht').1⟩
    rw [hnew, ok_bind]
    exact ht'
  refine ⟨s', ?_⟩
  rw [remapStack, htop, ok_bind, hbottom, ok_bind, hunmap, paging_ok, andThen_ok, hloop,
    paging_ok]

/-- The bitmaps are made when there is room for them. -/
theorem makeBitmaps_total {sizeBytes : Nat}
    (hend : ∀ r ∈ b.rammapEntries, r.type = .usable → r.endFrame ≤ 8 * sizeBytes)
    (hoff : IsCanonical pt.internalOffset)
    (hroom : Room pt.internalOffset (s.alloc.cursor.addr
      + (sizeInPages sizeBytes + sizeInPages (sizeBytes * 2)) * PAGE_SIZE)) :
    ∃ maps s', makeBitmaps b pt sizeBytes s = .ok (.ok maps, s') := by
  have hlow := hroom.low
  rw [Nat.add_mul] at hlow
  obtain ⟨fa, la, hframes, -⟩ := frameBitmapNew_ok sizeBytes s.alloc pt b.rammapEntries hend
    (by omega) (hroom.canonical hoff (by omega))
  obtain ⟨a, la₁, hnew, hrest⟩ := andThen_eq_ok hframes
  obtain ⟨a', -, hdone⟩ := bind_eq_ok.mp hrest
  cases hdone
  obtain ⟨_, -, hbuilt⟩ := bitmapNew_cases hnew
  obtain ⟨av, la₂, hvirt⟩ : ∃ av la₂, BitmapAllocator.new (sizeBytes * 2) true la pt
      = .ok (.ok av, la₂) := by
    apply bitmapNew_total
    · rw [hbuilt.cursor]
      omega
    · rw [hbuilt.cursor]
      exact hroom.canonical hoff (by rw [Nat.add_mul]; omega)
  refine ⟨(⟨a'⟩, ⟨av⟩), ⟨s.mem, la₂⟩, ?_⟩
  rw [makeBitmaps, hframes, onAllocator, andThen_ok, VirtualMemoryAllocator.new, hvirt]
  rfl

/-- **`init_paging` RETURNS `Ok`.** -/
theorem initPaging_total (hboot : Bootable b region kSect)
    (hcur : s.alloc.cursor.addr = b.heapEnd) (hal : s.alloc.cursor.addr % PAGE_SIZE = 0) :
    ∃ ctl s', initPaging b ⟨b.entryStackPointer, hboot.stack.entry⟩ s
      = .ok (.ok ctl, s') := by
  have hroom := hboot.room
  rw [bootLimit, ← hcur] at hroom
  obtain ⟨pt, s₀, hnew⟩ := new_boot_total s hal
    (hroom.mono (Nat.add_le_add_left (Nat.le_mul_of_pos_left _ (by omega)) _))
  obtain ⟨root, hb₀, hoff, -, -, hcur₀⟩ := new_boot hnew
  have hcan : IsCanonical pt.internalOffset := hoff ▸ b.hhdm.offset.canonical
  rw [← hoff] at hroom
  have hplan : Plan pt (fun _ _ => False) s₀ b.earlyPages := by
    refine ⟨fun m hm => hboot.mappable m (List.mem_append_left _ hm), ?_, fun _ _ _ h => h, ?_⟩
    · have hd := hboot.distinct
      rw [List.map_append] at hd
      exact (List.nodup_append.mp hd).1
    · refine hroom.mono ?_
      rw [hcur₀]
      unfold PAGE_SIZE
      omega
  rw [BootInfo.earlyPages_eq hboot.kernel] at hplan
  obtain ⟨s₁, h₁⟩ := mapKernel_total hboot.image hcan hb₀ hplan.left
  have hp₁ := mapKernel_placed hb₀ h₁
  obtain ⟨s₂, h₂⟩ := mapRegions_total hoff hboot.regions hp₁.boot (hplan.right hp₁)
  have hearly := earlyPages_placed hboot.kernel hoff hb₀ h₁ h₂
  have hb₂ : BootState pt root s₂ (b.earlyPages.map Prod.snd) (OnList b.earlyPages) :=
    hearly.boot.congr (fun a => by simp) fun w f => or_iff_right id
  obtain ⟨s₃, h₃⟩ := remapStack_total hboot.outside hboot.stack hb₂
  obtain ⟨-, hgrown₃⟩ := remapStack_boot rfl hboot.outside hb₂ h₃
  have hbound := (hearly.grown.trans hgrown₃).bound
  obtain ⟨highest, hhighest⟩ := Option.isSome_iff_exists.mp hboot.highest
  -- three tables for each page are more than the early pages can have taken
  obtain ⟨maps, s₄, h₄⟩ := makeBitmaps_total (s := s₃) hboot.usable hcan (hroom.mono (by
    rw [BootInfo.bitmapPages]
    simp only [PAGE_SIZE] at *
    omega))
  rw [BootInfo.sizeBytes_eq hhighest] at h₄
  refine ⟨(pt, maps), s₄, ?_⟩
  rw [initPaging, hnew, ok_bind]
  dsimp only
  rw [hboot.kernel, hhighest]
  dsimp only
  rw [h₁, andThen_ok, mapMisc, h₂, andThen_ok, h₃, andThen_ok, h₄, andThen_ok]

/-- The tables of the heap still fit below the limit. -/
theorem heapTables_le_bootLimit {bitmaps : Nat}
    (h : bitmaps ≤ b.heapEnd + (1 + 3 * b.earlyPages.length) * PAGE_SIZE) :
    bitmaps + b.bitmapPages * PAGE_SIZE + 3 * heapPages * PAGE_SIZE ≤ bootLimit b := by
  rw [bootLimit, Nat.add_mul _ (3 * heapPages), Nat.add_mul _ b.bitmapPages]
  omega

/-- The heap can be mapped behind the early pages. -/
theorem heap_plan (hboot : Bootable b region kSect)
    (hoff : pt.internalOffset = b.hhdm.offset.addr)
    (hlimit : s.alloc.cursor.addr + 3 * heapPages * PAGE_SIZE ≤ bootLimit b) :
    Plan pt b.EarlyOn s b.heapMappings := by
  have hdistinct := hboot.distinct
  rw [List.map_append] at hdistinct
  obtain ⟨-, hheap, hdisjoint⟩ := List.nodup_append.mp hdistinct
  refine ⟨fun m hm => hboot.mappable m (List.mem_append_right _ hm), hheap, ?_, ?_⟩
  · rintro m hm f ⟨-, m', hm', hpage, -⟩
    exact hdisjoint _ (List.mem_map_of_mem hm') _ (List.mem_map_of_mem hm) hpage
  · rw [hoff]
    refine hboot.room.mono ?_
    rwa [BootInfo.heapMappings, pagesFrom_length]

/-- The heap is mapped, and its tables stay below the limit. -/
theorem mapHeap_total (hboot : Bootable b region kSect) {s₁ : PagingState LinearFrameAllocator}
    {bitmaps : Nat} {maps : BitmapFrameAllocator × VirtualMemoryAllocator}
    (hpaged : Paged b root s s₁ bitmaps pt maps) (hcur : s.alloc.cursor.addr = b.heapEnd)
    {p : PhysAddr} {v : VirtAddr} (hp : p.addr = b.allocatorBase)
    (hv : v.addr = b.allocatorBase + b.hhdm.offset.addr) :
    ∃ s₂, pt.mapContiguous heapPages p v flagsRw s₁ = .ok (.ok (), s₂)
      ∧ b.heapEnd ≤ s₂.alloc.cursor.addr ∧ s₂.alloc.cursor.addr ≤ bootLimit b := by
  have hbound := hpaged.limit
  have hbefore := hpaged.before
  rw [hcur] at hbound hbefore
  have hlimit := heapTables_le_bootLimit hbound
  rw [← hpaged.behind] at hlimit
  have hplan := heap_plan hboot hpaged.offset hlimit
  rw [BootInfo.heapMappings, ← hv, ← hp] at hplan
  obtain ⟨s₂, hmap⟩ := mapContiguous_total flagsRw_present
    (hpaged.offset ▸ b.hhdm.offset.canonical) hpaged.boot
    (show heapPages * PAGE_SIZE < 2 ^ 64 by decide) hplan
  have hgrown := (mapContiguous_placed flagsRw_present hpaged.boot hmap).grown
  have hcur₂ := hgrown.bound
  rw [pagesFrom_length] at hcur₂
  have hle₂ := hgrown.le
  rw [hpaged.behind] at hle₂
  exact ⟨s₂, hmap, by omega, hcur₂.trans hlimit⟩

/-- **`init_memory` REACHES `load`.** -/
theorem prepareMemory_total (hboot : Bootable b region kSect) (mem : PhysMem) :
    ∃ c heapVirt, prepareMemory b mem = .ok (.ok (c, heapVirt)) := by
  have hroom := hboot.room
  have hlow := hroom.low
  have hbase := BootInfo.allocatorBase_eq hboot.allocator
  have hend : b.heapEnd = region.base + heapPages * PAGE_SIZE := by
    rw [BootInfo.heapEnd, hbase]
    rfl
  have hle : b.heapEnd ≤ bootLimit b := Nat.le_add_right _ _
  have hbaseLe : region.base ≤ b.heapEnd := hend ▸ Nat.le_add_right _ _
  have hvalid : region.base < 2 ^ 52 := by omega
  have hcan : IsCanonical region.base := Or.inl (by omega)
  have hdirect : IsCanonical (region.base + b.hhdm.offset.addr) :=
    hroom.canonical b.hhdm.offset.canonical (by omega)
  have hphys : PhysAddr.new region.base = .ok ⟨_, hvalid⟩ := PhysAddr.new_eq_ok.mpr rfl
  have hvirt : VirtAddr.new region.base = .ok ⟨_, hcan⟩ := VirtAddr.new_eq_ok.mpr rfl
  have hadd : VirtAddr.add ⟨_, hcan⟩ b.hhdm.offset.addr = .ok ⟨_, hdirect⟩ :=
    VirtAddr.add_eq_ok.mpr rfl
  have hstart : PhysAddr.new (region.base + b.hhdm.offset.addr - b.hhdm.offset.addr)
      = .ok ⟨_, hvalid⟩ := PhysAddr.new_eq_ok.mpr (Nat.add_sub_cancel _ _).symm
  have halloc : LinearFrameAllocator.allocContiguous ⟨⟨_, hvalid⟩⟩ heapPages
      = .ok (.ok ⟨_, hvalid⟩, ⟨⟨b.heapEnd, by omega⟩⟩) :=
    LinearFrameAllocator.allocContiguous_eq_ok.mpr ⟨rfl, hend⟩
  have hentry : VirtAddr.new b.entryStackPointer
      = .ok ⟨b.entryStackPointer, hboot.stack.entry⟩ := VirtAddr.new_eq_ok.mpr rfl
  have haligned : b.heapEnd % PAGE_SIZE = 0 := by
    rw [hend, Nat.add_mul_mod_self_right]
    exact hboot.aligned
  obtain ⟨⟨pt, maps⟩, s₁, hinit⟩ := initPaging_total (s := ⟨mem, ⟨⟨b.heapEnd, by omega⟩⟩⟩)
    hboot rfl haligned
  obtain ⟨root, bitmaps, hpaged⟩ := initPaging_cases rfl hboot.outside hinit
  have hheapVirt : VirtAddr.add ⟨_, hcan⟩ pt.internalOffset = .ok ⟨_, hdirect⟩ :=
    VirtAddr.add_eq_ok.mpr (by rw [hpaged.offset])
  obtain ⟨s₂, hmap, hlo₂, hhi₂⟩ := mapHeap_total (p := ⟨_, hvalid⟩) (v := ⟨_, hdirect⟩)
    hboot hpaged rfl hbase.symm (by rw [hbase])
  -- the region up to the cursor is reserved: the tables and the bitmaps lie in it
  have hcapacity : s₂.alloc.cursor.addr / PAGE_SIZE ≤ maps.1.bits.bitmap.length * 8 := by
    rw [hpaged.frames.length]
    exact (Nat.div_le_div_right hhi₂).trans hboot.capacity
  obtain ⟨bits, hflag, -⟩ := BitmapAllocator.flagRange_ok true
    (Nat.div_le_div_right (c := PAGE_SIZE) (hbaseLe.trans hlo₂)) hcapacity
  refine ⟨⟨pt, ⟨bits⟩, maps.2, s₂.mem⟩, ⟨_, hdirect⟩, ?_⟩
  have hprepare : prepareIn b region mem
      = .ok (.ok (⟨pt, ⟨bits⟩, maps.2, s₂.mem⟩, ⟨_, hdirect⟩), s₂) := by
    rw [prepareIn, hphys, ok_bind, hvirt, ok_bind, hadd, ok_bind, hstart, ok_bind]
    dsimp only
    rw [halloc, onAllocator, andThen_ok, hentry, ok_bind, hinit, andThen_ok]
    dsimp only
    rw [hvirt, ok_bind, hheapVirt, ok_bind, hmap, paging_ok, andThen_ok, hflag, ok_bind]
    rfl
  rw [prepareMemory, hboot.allocator]
  dsimp only
  rw [hprepare, ok_bind]
  rfl

end Reached

end KermolPrepared
