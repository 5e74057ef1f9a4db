import Kermol.BootTablesProofs
import Kermol.PagingControllerProofs

/-! # Memory initialisation

    `init_memory` picks the largest Usable region for a linear allocator, takes
    the heap from it, builds the page table and the two bitmaps behind the
    heap, maps the heap and loads the new page table.

    The file has the code, and what the kernel image and the regions of the
    memory map come to as lists of pages: `mapKernel_placed` and
    `mapRegions_placed` say what a call that returned `Ok` has mapped,
    `mapKernel_total` and `mapRegions_total` when it returns `Ok`. -/

namespace KermolInitMemory

open RustEffect X86Paging KermolFrameAllocator KermolPageTable KermolBitmap
open KermolPageTree KermolMapStep KermolPageTableRun KermolFrameBitmap KermolController
open KermolBootTables RadixTree

/-! ## What is read at boot -/

/-- The addresses of the linker script's symbols.  The script starts in the top
    level-4 slot and puts the sections one behind the other. -/
structure KernelImage where
  limineReqsStart : Nat
  textStart : Nat
  rodataStart : Nat
  dataStart : Nat
  elfEnd : Nat
  high : 0xFFFFFF8000000000 ≤ limineReqsStart
  text : limineReqsStart ≤ textStart
  rodata : textStart ≤ rodataStart
  data : rodataStart ≤ dataStart
  elf : dataStart ≤ elfEnd
  fits : elfEnd < 2 ^ 64

/-- An image with one page for each section. -/
def sampleImage : KernelImage :=
  ⟨0xFFFFFFFF80000000, 0xFFFFFFFF80001000, 0xFFFFFFFF80002000, 0xFFFFFFFF80003000,
    0xFFFFFFFF80004000, by decide, by decide, by decide, by decide, by decide, by decide⟩

/-- A region that holds its four pages and nothing else. -/
def sampleKernelRegion : MemoryRegionInfo :=
  ⟨0x800000, 0x4000, .executableAndModules, by decide⟩

/-- Limine's answer to the executable address request. -/
structure KernelAddress where
  virtualBase : Nat
  physicalBase : Nat

/-- Everything that `init_memory` reads: Limine's answers, the linker's symbols
    and the stack pointer at entry. -/
structure BootInfo where
  rammapEntries : List MemoryRegionInfo
  hhdm : HhdmResponse
  kernelAddr : KernelAddress
  image : KernelImage
  entryStackPointer : Nat

/-- `KERNEL_HEAP_SIZE` -/
def KERNEL_HEAP_SIZE : Nat := 4 * 1024 * 1024

/-- `STACK_SIZE_REQUEST.stack_size` -/
def STACK_SIZE : Nat := 64 * 1024

/-- `KERNEL_HEAP_SIZE / PAGE_SIZE` -/
def heapPages : Nat := KERNEL_HEAP_SIZE / PAGE_SIZE

/-- `max_by` with a key: the last of the largest elements. -/
def maxBy {α : Type} (key : α → Nat) : List α → Option α
  | [] => none
  | x :: xs =>
      match maxBy key xs with
      | none => some x
      | some y => if key y < key x then some x else some y

theorem maxBy_eq_none {α : Type} {key : α → Nat} {xs : List α} (h : maxBy key xs = none) :
    xs = [] := by
  cases xs with
  | nil => rfl
  | cons x xs =>
      rw [maxBy] at h
      split at h
      · cases h
      · split at h <;> cases h

theorem maxBy_mem {α : Type} {key : α → Nat} {xs : List α} :
    ∀ {m : α}, maxBy key xs = some m → m ∈ xs := by
  induction xs with
  | nil =>
      intro m h
      cases h
  | cons y xs ih =>
      intro m h
      rw [maxBy] at h
      split at h
      · cases h
        exact List.mem_cons_self
      · next z hz =>
          split at h
          · cases h
            exact List.mem_cons_self
          · cases h
            exact List.mem_cons_of_mem _ (ih hz)

/-- `max_by` finds an upper bound. -/
theorem le_maxBy {α : Type} {key : α → Nat} {xs : List α} :
    ∀ {m : α}, maxBy key xs = some m → ∀ x ∈ xs, key x ≤ key m := by
  induction xs with
  | nil =>
      intro m h
      cases h
  | cons y xs ih =>
      intro m h
      rw [maxBy] at h
      rw [List.forall_mem_cons]
      split at h
      · next hnone =>
          cases h
          rw [maxBy_eq_none hnone]
          exact ⟨Nat.le_refl _, nofun⟩
      · next z hz =>
          split at h
          · next hlt =>
              cases h
              exact ⟨Nat.le_refl _, fun x hx => (ih hz x hx).trans hlt.le⟩
          · next hge =>
              cases h
              exact ⟨Nat.le_of_not_lt hge, ih hz⟩

/-- `(lo..hi).step_by(PAGE_SIZE)` -/
def stepBy (lo hi : Nat) : List Nat :=
  (List.range ((hi - lo + PAGE_SIZE - 1) / PAGE_SIZE)).map fun i => lo + i * PAGE_SIZE

/-! ## The code -/

section Code

/-- `?` on a `PagingError` inside a function that returns `MemoryError`. -/
def paging {σ α : Type} : Fallible PagingError σ α → Fallible MemoryError σ α
  | .error p => .error p
  | .ok (.error e, s) => .ok (.error (.pagingError e), s)
  | .ok (.ok a, s) => .ok (.ok a, s)

/-- A call that only uses the allocator. -/
def onAllocator {α : Type} (mem : PhysMem) :
    Fallible MemoryError LinearFrameAllocator α →
      Fallible MemoryError (PagingState LinearFrameAllocator) α
  | .error p => .error p
  | .ok (r, alloc) => .ok (r, ⟨mem, alloc⟩)

variable (b : BootInfo) (pageTable : RecursivePageTable)

/-- `page - virtual_base + physical_base` -/
def kernelPhys (page : Nat) : Panics PhysAddr :=
  if b.kernelAddr.virtualBase ≤ page then
    PhysAddr.new (page - b.kernelAddr.virtualBase + b.kernelAddr.physicalBase)
  else .error .overflow

/-- `map_kernel_section` -/
def mapKernelSection (regionStart regionEnd : Nat) (flags : PageTableFlags)
    (s : PagingState LinearFrameAllocator) :
    Fallible MemoryError (PagingState LinearFrameAllocator) Unit :=
  if regionStart = regionEnd then .ok (.ok (), s)
  else paging (forEach (fun page s => show Panics _ from do
    let p ← kernelPhys b page
    let v ← VirtAddr.new page
    pageTable.map p v (.union flags .GLOBAL) s) (stepBy regionStart regionEnd) s)

/-- The end of `map_kernel`: what the region holds behind the sections. -/
def mapKernelRest (kernelRegion : MemoryRegionInfo) (s : PagingState LinearFrameAllocator) :
    Fallible MemoryError (PagingState LinearFrameAllocator) Unit :=
  if b.image.limineReqsStart ≤ b.image.elfEnd
      ∧ b.image.elfEnd - b.image.limineReqsStart ≤ kernelRegion.length then
    show Panics _ from do
      let mappedSectSize := b.image.elfEnd - b.image.limineReqsStart
      let remainingPages := sizeInPages (kernelRegion.length - mappedSectSize)
      let p ← kernelPhys b b.image.elfEnd
      let v ← VirtAddr.new b.image.elfEnd
      paging (pageTable.mapContiguous remainingPages p v (.union flagsR .GLOBAL) s)
  else .error .overflow

/-- `map_kernel` -/
def mapKernel (kernelRegion : MemoryRegionInfo) (s : PagingState LinearFrameAllocator) :
    Fallible MemoryError (PagingState LinearFrameAllocator) Unit :=
  let i := b.image
  andThen (mapKernelSection b pageTable i.limineReqsStart i.textStart flagsR s) fun _ s =>
  andThen (mapKernelSection b pageTable i.textStart i.rodataStart flagsRx s) fun _ s =>
  andThen (mapKernelSection b pageTable i.rodataStart i.dataStart flagsR s) fun _ s =>
  andThen (mapKernelSection b pageTable i.dataStart i.elfEnd flagsRw s) fun _ s =>
    mapKernelRest b pageTable kernelRegion s

/-- The flags of the regions that `map_misc` maps; the others are skipped. -/
def miscFlags : MemoryRegionType → Option PageTableFlags
  | .framebuffer => some flagsRwx
  | .acpiNvs | .acpiReclaimable | .acpiTables | .bootloaderReclaimable => some flagsRwx
  | _ => none

/-- The body of `map_misc`: one region. -/
def mapRegion (region : MemoryRegionInfo) (s : PagingState LinearFrameAllocator) :
    Fallible MemoryError (PagingState LinearFrameAllocator) Unit :=
  match miscFlags region.type with
  | none => .ok (.ok (), s)
  | some flags => show Panics _ from do
      let pages := sizeInPages region.length
      let p ← PhysAddr.new region.base
      let v ← VirtAddr.new (region.base + pageTable.internalOffset)
      paging (pageTable.mapContiguous pages p v flags s)

/-- `map_misc` -/
def mapMisc (s : PagingState LinearFrameAllocator) :
    Fallible MemoryError (PagingState LinearFrameAllocator) Unit :=
  forEach (mapRegion pageTable) b.rammapEntries s

/-- `remap_stack` -/
def remapStack (entryStackPointer : VirtAddr) (s : PagingState LinearFrameAllocator) :
    Fallible MemoryError (PagingState LinearFrameAllocator) Unit :=
  show Panics _ from do
    let stackTop ← entryStackPointer.add 16
    let stackBottom ← stackTop.sub STACK_SIZE
    andThen (paging (pageTable.unmap stackTop s)) fun _ s =>
      paging (forEach (fun page s => show Panics _ from do
        let v ← VirtAddr.new page
        pageTable.updateFlags v flagsRw s) (stepBy stackBottom.addr stackTop.addr) s)

/-- The region that `init_paging` takes for the kernel. -/
def kernelRegion : Option MemoryRegionInfo :=
  b.rammapEntries.find? fun r => r.type = .executableAndModules

/-- The region that ends highest, Reserved and Framebuffer left out. -/
def highestValidRegion : Option MemoryRegionInfo :=
  maxBy (fun r => r.base + r.length)
    (b.rammapEntries.filter fun r => r.type ≠ .reserved ∧ r.type ≠ .framebuffer)

/-- The largest Usable region, for the linear allocator. -/
def allocatorRegion : Option MemoryRegionInfo :=
  maxBy (fun r => r.length) (b.rammapEntries.filter fun r => r.type = .usable)

/-- The two bitmaps at the end of `init_paging`. -/
def makeBitmaps (sizeBytes : Nat) (s : PagingState LinearFrameAllocator) :
    Fallible MemoryError (PagingState LinearFrameAllocator)
      (BitmapFrameAllocator × VirtualMemoryAllocator) :=
  andThen (onAllocator s.mem
      (BitmapFrameAllocator.new sizeBytes s.alloc pageTable b.rammapEntries)) fun frames s =>
  andThen (onAllocator s.mem
      (VirtualMemoryAllocator.new (sizeBytes * 2) s.alloc pageTable)) fun virt s =>
    .ok (.ok (frames, virt), s)

/-- `init_paging` -/
def initPaging (entryStackPointer : VirtAddr) (s : PagingState LinearFrameAllocator) :
    Fallible MemoryError (PagingState LinearFrameAllocator)
      (RecursivePageTable × BitmapFrameAllocator × VirtualMemoryAllocator) :=
  show Panics _ from do
    let (recPageTable, s) ← RecursivePageTable.new b.hhdm s
    match kernelRegion b with
    | none => .error .unwrapFailed
    | some kSect =>
        andThen (mapKernel b recPageTable kSect s) fun _ s =>
        andThen (mapMisc b recPageTable s) fun _ s =>
        andThen (remapStack recPageTable entryStackPointer s) fun _ s =>
          match highestValidRegion b with
          | none => .error .unwrapFailed
          | some highest =>
              let sizeBytes := (highest.base + highest.length) / PAGE_SIZE / 8
              andThen (makeBitmaps b recPageTable sizeBytes s) fun maps s =>
                .ok (.ok (recPageTable, maps), s)

/-- `init_memory` from the choice of the region on, up to `load`: the
    controller, and where the heap is. -/
def prepareIn (region : MemoryRegionInfo) (mem : PhysMem) :
    Fallible MemoryError (PagingState LinearFrameAllocator)
      (KernelPagingController × VirtAddr) :=
  show Panics _ from do
    let allocatorPhysBase ← PhysAddr.new region.base
    let base ← VirtAddr.new region.base
    let allocatorVirtBase ← base.add b.hhdm.offset.addr
    let start ← PhysAddr.new (allocatorVirtBase.addr - b.hhdm.offset.addr)
    let dummyAllocator : LinearFrameAllocator := ⟨start⟩
    andThen (onAllocator mem (dummyAllocator.allocContiguous heapPages)) fun heapPhys s =>
      show Panics _ from do
        let entryStackPointer ← VirtAddr.new b.entryStackPointer
        andThen (initPaging b entryStackPointer s) fun ctl s => show Panics _ from do
          let (recPageTable, frames, virt) := ctl
          let heapBase ← VirtAddr.new heapPhys.addr
          let heapVirt ← heapBase.add recPageTable.internalOffset
          andThen (paging (recPageTable.mapContiguous heapPages heapPhys heapVirt flagsRw s))
            fun _ s => show Panics _ from do
              let (answer, bits) ← frames.bits.flagRange (allocatorPhysBase.addr / PAGE_SIZE)
                (s.alloc.cursor.addr / PAGE_SIZE) true
              match answer with
              | .error e => return (.error e, s)
              | .ok () => return (.ok (⟨recPageTable, ⟨bits⟩, virt, s.mem⟩, heapVirt), s)

/-- `init_memory` up to `load`. -/
def prepareMemory (mem : PhysMem) :
    Panics (Except MemoryError (KernelPagingController × VirtAddr)) :=
  match allocatorRegion b with
  | none => .ok (.error .allocationError)
  | some region => do
      let (answer, _) ← prepareIn b region mem
      return answer

/-- `init_memory`: the controller is stored once the page table is loaded. -/
def initMemory (mem : PhysMem) : Panics (Except MemoryError Kernel) := do
  match ← prepareMemory b mem with
  | .error e => return .error e
  | .ok (controller, _) =>
      let (recPageTable, _) ← controller.recPageTable.load
      return .ok (some { controller with recPageTable := recPageTable })

end Code

/-! ## The mappings made at boot -/

namespace BootInfo

variable (b : BootInfo)

/-- The pages of a section with their frames. -/
def sectionPages (lo hi : Nat) : List (Nat × Nat) :=
  (stepBy lo hi).map fun page =>
    (page - b.kernelAddr.virtualBase + b.kernelAddr.physicalBase, page)

/-- The pages of the kernel with their frames. -/
def kernelPagesIn (region : MemoryRegionInfo) : List (Nat × Nat) :=
  let i := b.image
  b.sectionPages i.limineReqsStart i.textStart ++ (b.sectionPages i.textStart i.rodataStart
    ++ (b.sectionPages i.rodataStart i.dataStart ++ (b.sectionPages i.dataStart i.elfEnd
      ++ pagesFrom (i.elfEnd - b.kernelAddr.virtualBase + b.kernelAddr.physicalBase) i.elfEnd
        (sizeInPages (region.length - (i.elfEnd - i.limineReqsStart))))))

/-- The pages of a region, if `map_misc` maps it. -/
def regionPages (r : MemoryRegionInfo) : List (Nat × Nat) :=
  if (miscFlags r.type).isSome then
    pagesFrom r.base (r.base + b.hhdm.offset.addr) (sizeInPages r.length)
  else []

/-- The pages of the regions that `map_misc` maps. -/
def miscPages : List (Nat × Nat) := b.rammapEntries.flatMap b.regionPages

/-- The address behind the stack; its page is the guard page. -/
def stackTop : Nat := b.entryStackPointer + 16

/-- The stack is no part of the recursive slot: `entry_stack_pointer` has to be
    correct. -/
def StackOutside : Prop :=
  ∀ v : VirtAddr, v.addr = b.stackTop
      ∨ v.addr ∈ stepBy (b.stackTop - STACK_SIZE) b.stackTop →
    pageIndex 4 v ≠ RECURSIVE

/-- Where the linear allocator starts. -/
def allocatorBase : Nat := ((allocatorRegion b).map (·.base)).getD 0

/-- The first frame behind the heap. -/
def heapEnd : Nat := b.allocatorBase + KERNEL_HEAP_SIZE

/-- `size_bytes` of `init_paging` -/
def sizeBytes : Nat :=
  ((highestValidRegion b).map fun r => (r.base + r.length) / PAGE_SIZE / 8).getD 0

/-- The frames of the two bitmaps. -/
def bitmapPages : Nat := sizeInPages b.sizeBytes + sizeInPages (b.sizeBytes * 2)

/-- The pages of the kernel with their frames. -/
def kernelPages : List (Nat × Nat) := ((kernelRegion b).map b.kernelPagesIn).getD []

/-- What is mapped before the bitmaps are made. -/
def earlyPages : List (Nat × Nat) := b.kernelPages ++ b.miscPages

/-- The pages of the heap with their frames. -/
def heapMappings : List (Nat × Nat) :=
  pagesFrom b.allocatorBase (b.allocatorBase + b.hhdm.offset.addr) heapPages

/-- The guard page is taken out of the early mappings. -/
def EarlyOn (w f : Nat) : Prop := w ≠ b.stackTop / PAGE_SIZE ∧ OnList b.earlyPages w f

/-- The frames that boot takes behind the heap: the level-4 table, the tables
    for everything that is mapped, and the bitmaps. -/
def bootFrames : Nat :=
  1 + tableCount ((b.earlyPages ++ b.heapMappings).map Prod.snd) + b.bitmapPages

variable {b} {region : MemoryRegionInfo}

theorem allocatorBase_eq (h : allocatorRegion b = some region) :
    b.allocatorBase = region.base := by
  rw [allocatorBase, h]
  rfl

theorem sizeBytes_eq (h : highestValidRegion b = some region) :
    b.sizeBytes = (region.base + region.length) / PAGE_SIZE / 8 := by
  rw [sizeBytes, h]
  rfl

theorem kernelPages_eq (h : kernelRegion b = some region) :
    b.kernelPages = b.kernelPagesIn region := by
  rw [kernelPages, h]
  rfl

theorem earlyPages_eq (h : kernelRegion b = some region) :
    b.earlyPages = b.kernelPagesIn region ++ b.miscPages := by
  rw [earlyPages, kernelPages_eq h]

end BootInfo

/-- `map_misc` maps no Usable region. -/
theorem not_usable_of_misc {r : MemoryRegionInfo} (h : (miscFlags r.type).isSome) :
    r.type ≠ .usable := by
  intro hu
  rw [hu] at h
  cases h

theorem mem_miscPages {b : BootInfo} {m : Nat × Nat} :
    m ∈ b.miscPages ↔ ∃ r ∈ b.rammapEntries, (miscFlags r.type).isSome
      ∧ ∃ i < sizeInPages r.length,
        m = (r.base + i * PAGE_SIZE, r.base + b.hhdm.offset.addr + i * PAGE_SIZE) := by
  simp only [BootInfo.miscPages, List.mem_flatMap, BootInfo.regionPages]
  refine exists_congr fun r => and_congr_right fun _ => ?_
  split
  · next hsome => simp [hsome, mem_pagesFrom]
  · next hnone => simp [hnone]

section Mappings

variable {b : BootInfo} {pt : RecursivePageTable} {root : PhysAddr}
  {s s' : PagingState LinearFrameAllocator} {touched : List Nat} {On : Nat → Nat → Prop}

theorem paging_eq_ok {σ α : Type} {x : Fallible PagingError σ α} {a : α} {t : σ}
    (h : paging x = .ok (.ok a, t)) : x = .ok (.ok a, t) := by
  match x, h with
  | .ok (.ok a', t'), h => cases h; rfl

theorem kernelPhys_eq_ok {page : Nat} {p : PhysAddr} (h : kernelPhys b page = .ok p) :
    PhysAddr.new (page - b.kernelAddr.virtualBase + b.kernelAddr.physicalBase) = .ok p := by
  rw [kernelPhys] at h
  split at h
  · exact h
  · cases h

theorem mapContiguous_loop {pages : Nat} {p : PhysAddr} {v : VirtAddr}
    {flags : PageTableFlags} (h : pt.mapContiguous pages p v flags s = .ok (.ok (), s')) :
    forEach (mapPage pt flags) (pagesFrom p.addr v.addr pages) s = .ok (.ok (), s') := by
  rw [mapContiguous_eq] at h
  split at h
  · exact h
  · cases h

theorem mapContiguous_placed {pages : Nat} {p : PhysAddr} {v : VirtAddr}
    {flags : PageTableFlags} (hpres : flags.contains .PRESENT = true)
    (hb : BootState pt root s touched On)
    (h : pt.mapContiguous pages p v flags s = .ok (.ok (), s')) :
    Placed pt root (pagesFrom p.addr v.addr pages) touched On s s' :=
  mapPages_boot hpres hb (mapContiguous_loop h)

/-- A section is a loop over its pages. -/
theorem mapKernelSection_loop {lo hi : Nat} {flags : PageTableFlags}
    (h : mapKernelSection b pt lo hi flags s = .ok (.ok (), s')) :
    forEach (mapPage pt (.union flags .GLOBAL)) (b.sectionPages lo hi) s
      = .ok (.ok (), s') := by
  rw [mapKernelSection] at h
  rw [BootInfo.sectionPages, forEach_map]
  split at h
  · next heq =>
      have hempty : stepBy hi hi = [] := by
        rw [stepBy, Nat.sub_self]
        rfl
      rw [heq, hempty]
      cases h
      rfl
  · refine forEach_ok_congr (fun page _ t t' hbody => ?_) (paging_eq_ok h)
    obtain ⟨p, hp, hbody⟩ := bind_eq_ok.mp hbody
    rw [mapPage, kernelPhys_eq_ok hp, ok_bind]
    exact hbody

theorem mapKernelRest_loop {region : MemoryRegionInfo}
    (h : mapKernelRest b pt region s = .ok (.ok (), s')) :
    forEach (mapPage pt (.union flagsR .GLOBAL)) (pagesFrom
      (b.image.elfEnd - b.kernelAddr.virtualBase + b.kernelAddr.physicalBase) b.image.elfEnd
      (sizeInPages (region.length - (b.image.elfEnd - b.image.limineReqsStart)))) s
      = .ok (.ok (), s') := by
  rw [mapKernelRest] at h
  split at h
  · obtain ⟨p, hp, h⟩ := bind_eq_ok.mp h
    obtain ⟨v, hv, h⟩ := bind_eq_ok.mp h
    have hloop := mapContiguous_loop (paging_eq_ok h)
    rwa [PhysAddr.new_eq_ok.mp (kernelPhys_eq_ok hp), VirtAddr.new_eq_ok.mp hv] at hloop
  · cases h

/-- **`map_kernel` AT BOOT.** -/
theorem mapKernel_placed {region : MemoryRegionInfo} (hb : BootState pt root s touched On)
    (h : mapKernel b pt region s = .ok (.ok (), s')) :
    Placed pt root (b.kernelPagesIn region) touched On s s' := by
  obtain ⟨_, s₁, h₁, h⟩ := andThen_eq_ok h
  obtain ⟨_, s₂, h₂, h⟩ := andThen_eq_ok h
  obtain ⟨_, s₃, h₃, h⟩ := andThen_eq_ok h
  obtain ⟨_, s₄, h₄, h⟩ := andThen_eq_ok h
  have hp₁ := mapPages_boot (by decide) hb (mapKernelSection_loop h₁)
  have hp₂ := mapPages_boot (by decide) hp₁.boot (mapKernelSection_loop h₂)
  have hp₃ := mapPages_boot (by decide) hp₂.boot (mapKernelSection_loop h₃)
  have hp₄ := mapPages_boot (by decide) hp₃.boot (mapKernelSection_loop h₄)
  have hp₅ := mapPages_boot (by decide) hp₄.boot (mapKernelRest_loop h)
  exact hp₁.append (hp₂.append (hp₃.append (hp₄.append hp₅)))

/-- All regions get the same flags. -/
theorem miscFlags_eq {type : MemoryRegionType} {flags : PageTableFlags}
    (h : miscFlags type = some flags) : flags = flagsRwx := by
  cases type <;> cases h <;> rfl

/-- A region is a loop over its pages. -/
theorem mapRegion_loop {r : MemoryRegionInfo} (hoff : pt.internalOffset = b.hhdm.offset.addr)
    (h : mapRegion pt r s = .ok (.ok (), s')) :
    forEach (mapPage pt flagsRwx) (b.regionPages r) s = .ok (.ok (), s') := by
  rw [mapRegion] at h
  rw [BootInfo.regionPages]
  cases hflags : miscFlags r.type with
  | none =>
      rw [hflags] at h
      cases h
      rfl
  | some flags =>
      rw [hflags] at h
      obtain ⟨p, hp, h⟩ := bind_eq_ok.mp h
      obtain ⟨v, hv, h⟩ := bind_eq_ok.mp h
      have hloop := mapContiguous_loop (paging_eq_ok h)
      rwa [PhysAddr.new_eq_ok.mp hp, VirtAddr.new_eq_ok.mp hv, hoff, miscFlags_eq hflags]
        at hloop

/-- `map_misc` is a loop over the pages of the regions. -/
theorem mapRegions_loop (hoff : pt.internalOffset = b.hhdm.offset.addr)
    {regions : List MemoryRegionInfo}
    (h : forEach (mapRegion pt) regions s = .ok (.ok (), s')) :
    forEach (mapPage pt flagsRwx) (regions.flatMap b.regionPages) s = .ok (.ok (), s') := by
  have hbody : ∀ r ∈ regions, ∀ t t', mapRegion pt r t = .ok (.ok (), t') →
      forEach (mapPage pt flagsRwx) (b.regionPages r) t = .ok (.ok (), t') :=
    fun r _ t t' hr => mapRegion_loop hoff hr
  rw [forEach_flatMap]
  exact forEach_ok_congr hbody h

/-- **`map_misc` AT BOOT.** -/
theorem mapRegions_placed (hoff : pt.internalOffset = b.hhdm.offset.addr)
    {regions : List MemoryRegionInfo} (hb : BootState pt root s touched On)
    (h : forEach (mapRegion pt) regions s = .ok (.ok (), s')) :
    Placed pt root (regions.flatMap b.regionPages) touched On s s' :=
  mapPages_boot flagsRwx_present hb (mapRegions_loop hoff h)

end Mappings

/-! ## When the mappings succeed -/

section Reached

variable {b : BootInfo} {pt : RecursivePageTable} {root : PhysAddr}
  {s : PagingState LinearFrameAllocator} {touched : List Nat} {On : Nat → Nat → Prop}

theorem paging_ok {σ α : Type} (a : α) (t : σ) :
    paging (.ok (.ok a, t)) = .ok (.ok a, t) := rfl

theorem mapContiguous_total {pages : Nat} {p : PhysAddr} {v : VirtAddr}
    {flags : PageTableFlags} (hpres : flags.contains .PRESENT = true)
    (hoff : IsCanonical pt.internalOffset) (hb : BootState pt root s touched On)
    (hsize : pages * PAGE_SIZE < 2 ^ 64)
    (hplan : Plan pt On s (pagesFrom p.addr v.addr pages)) :
    ∃ s', pt.mapContiguous pages p v flags s = .ok (.ok (), s') := by
  rw [mapContiguous_eq, if_pos hsize]
  exact mapPages_total hpres hoff hb hplan

theorem mapKernelSection_total {lo hi : Nat} (flags : PageTableFlags)
    (hpres : (PageTableFlags.union flags .GLOBAL).contains .PRESENT = true)
    (hoff : IsCanonical pt.internalOffset) (hb : BootState pt root s touched On)
    (hlo : b.kernelAddr.virtualBase ≤ lo) (hplan : Plan pt On s (b.sectionPages lo hi)) :
    ∃ s', mapKernelSection b pt lo hi flags s = .ok (.ok (), s') := by
  obtain ⟨s', h⟩ := mapPages_total hpres hoff hb hplan
  rw [mapKernelSection]
  split
  · exact ⟨s, rfl⟩
  · refine ⟨s', ?_⟩
    rw [BootInfo.sectionPages, forEach_map, stepBy, forEach_map] at h
    rw [stepBy, forEach_map, forEach_ok_congr (fun i _ t t' hbody => ?_) h, paging_ok]
    rw [mapPage] at hbody
    rw [kernelPhys, if_pos (by omega)]
    exact hbody

/-- A section is mapped, and what was planned behind it can still be. -/
theorem mapKernelSection_step {lo hi : Nat} {ms : List (Nat × Nat)} (flags : PageTableFlags)
    (hpres : (PageTableFlags.union flags .GLOBAL).contains .PRESENT = true)
    (hoff : IsCanonical pt.internalOffset) (hb : BootState pt root s touched On)
    (hlo : b.kernelAddr.virtualBase ≤ lo) (hplan : Plan pt On s (b.sectionPages lo hi ++ ms)) :
    ∃ s', mapKernelSection b pt lo hi flags s = .ok (.ok (), s')
      ∧ Placed pt root (b.sectionPages lo hi) touched On s s'
      ∧ Plan pt (fun w f => On w f ∨ OnList (b.sectionPages lo hi) w f) s' ms := by
  obtain ⟨s', h⟩ := mapKernelSection_total flags hpres hoff hb hlo hplan.left
  have hplaced := mapPages_boot hpres hb (mapKernelSection_loop h)
  exact ⟨s', h, hplaced, hplan.right hplaced⟩

/-- The kernel's sections lie in its region. -/
structure ImageOk (b : BootInfo) (region : MemoryRegionInfo) : Prop where
  base : b.kernelAddr.virtualBase ≤ b.image.limineReqsStart
  length : b.image.elfEnd - b.image.limineReqsStart ≤ region.length
  phys : b.image.elfEnd - b.kernelAddr.virtualBase + b.kernelAddr.physicalBase < 2 ^ 52
  virt : IsCanonical b.image.elfEnd
  size : sizeInPages (region.length - (b.image.elfEnd - b.image.limineReqsStart)) * PAGE_SIZE
    < 2 ^ 64

/-- **`map_kernel` RETURNS `Ok`.** -/
theorem mapKernel_total {region : MemoryRegionInfo} (himage : ImageOk b region)
    (hoff : IsCanonical pt.internalOffset) (hb : BootState pt root s touched On)
    (hplan : Plan pt On s (b.kernelPagesIn region)) :
    ∃ s', mapKernel b pt region s = .ok (.ok (), s') := by
  have hbase := himage.base
  have htext := b.image.text
  have hrodata := b.image.rodata
  have hdata := b.image.data
  have helf := b.image.elf
  obtain ⟨s₁, h₁, hp₁, hplan₁⟩ := mapKernelSection_step flagsR (by decide) hoff hb hbase hplan
  obtain ⟨s₂, h₂, hp₂, hplan₂⟩ := mapKernelSection_step flagsRx (by decide) hoff hp₁.boot
    (by omega) hplan₁
  obtain ⟨s₃, h₃, hp₃, hplan₃⟩ := mapKernelSection_step flagsR (by decide) hoff hp₂.boot
    (by omega) hplan₂
  obtain ⟨s₄, h₄, hp₄, hplan₄⟩ := mapKernelSection_step flagsRw (by decide) hoff hp₃.boot
    (by omega) hplan₃
  have hphys : kernelPhys b b.image.elfEnd = .ok ⟨_, himage.phys⟩ := by
    rw [kernelPhys, if_pos (by omega)]
    exact PhysAddr.new_eq_ok.mpr rfl
  have hvirt : VirtAddr.new b.image.elfEnd = .ok ⟨_, himage.virt⟩ := VirtAddr.new_eq_ok.mpr rfl
  obtain ⟨s₅, h₅⟩ := mapContiguous_total (p := ⟨_, himage.phys⟩) (v := ⟨_, himage.virt⟩)
    (show (PageTableFlags.union flagsR .GLOBAL).contains .PRESENT = true by decide)
    hoff hp₄.boot himage.size hplan₄
  refine ⟨s₅, ?_⟩
  have hrest : mapKernelRest b pt region s₄ = .ok (.ok (), s₅) := by
    rw [mapKernelRest, if_pos ⟨by omega, himage.length⟩]
    dsimp only
    rw [hphys, ok_bind, hvirt, ok_bind, h₅, paging_ok]
  rw [mapKernel, h₁, andThen_ok, h₂, andThen_ok, h₃, andThen_ok, h₄, andThen_ok, hrest]

/-- A region that `map_misc` maps has valid addresses. -/
structure RegionOk (b : BootInfo) (r : MemoryRegionInfo) : Prop where
  phys : r.base < 2 ^ 52
  virt : IsCanonical (r.base + b.hhdm.offset.addr)
  size : sizeInPages r.length * PAGE_SIZE < 2 ^ 64

/-- The pages of a region are mapped by `map_misc` when its addresses are
    valid. -/
theorem mapRegion_of_loop {s' : PagingState LinearFrameAllocator} {r : MemoryRegionInfo}
    (hoff : pt.internalOffset = b.hhdm.offset.addr)
    (hr : (miscFlags r.type).isSome → RegionOk b r)
    (h : forEach (mapPage pt flagsRwx) (b.regionPages r) s = .ok (.ok (), s')) :
    mapRegion pt r s = .ok (.ok (), s') := by
  rw [BootInfo.regionPages] at h
  rw [mapRegion]
  cases hflags : miscFlags r.type with
  | none =>
      rw [hflags] at h
      cases h
      rfl
  | some flags =>
      have hok := hr (by rw [hflags]; rfl)
      rw [hflags] at h
      have hphys : PhysAddr.new r.base = .ok ⟨_, hok.phys⟩ := PhysAddr.new_eq_ok.mpr rfl
      have hvirt : VirtAddr.new (r.base + pt.internalOffset) = .ok ⟨_, hok.virt⟩ :=
        VirtAddr.new_eq_ok.mpr (by rw [hoff])
      dsimp only
      rw [hphys, ok_bind, hvirt, ok_bind, mapContiguous_eq, if_pos hok.size,
        miscFlags_eq hflags]
      exact congrArg paging h

theorem mapRegions_of_loop {s' : PagingState LinearFrameAllocator}
    (hoff : pt.internalOffset = b.hhdm.offset.addr) {regions : List MemoryRegionInfo}
    (hok : ∀ r ∈ regions, (miscFlags r.type).isSome → RegionOk b r)
    (h : forEach (mapPage pt flagsRwx) (regions.flatMap b.regionPages) s = .ok (.ok (), s')) :
    forEach (mapRegion pt) regions s = .ok (.ok (), s') := by
  have hbody : ∀ r ∈ regions, ∀ t t', forEach (mapPage pt flagsRwx) (b.regionPages r) t
      = .ok (.ok (), t') → mapRegion pt r t = .ok (.ok (), t') :=
    fun r hr t t' hloop => mapRegion_of_loop hoff (hok r hr) hloop
  rw [forEach_flatMap] at h
  exact forEach_ok_congr hbody h

/-- **`map_misc` RETURNS `Ok`.** -/
theorem mapRegions_total (hoff : pt.internalOffset = b.hhdm.offset.addr)
    {regions : List MemoryRegionInfo}
    (hok : ∀ r ∈ regions, (miscFlags r.type).isSome → RegionOk b r)
    (hb : BootState pt root s touched On)
    (hplan : Plan pt On s (regions.flatMap b.regionPages)) :
    ∃ s', forEach (mapRegion pt) regions s = .ok (.ok (), s') := by
  obtain ⟨s', h⟩ := mapPages_total flagsRwx_present (hoff ▸ b.hhdm.offset.canonical) hb hplan
  exact ⟨s', mapRegions_of_loop hoff hok h⟩

end Reached

end KermolInitMemory
