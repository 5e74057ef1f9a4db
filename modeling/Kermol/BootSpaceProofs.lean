import Kermol.BootMapProofs
import Kermol.AddressSpaceProofs

/-! # The address space at `load`

    At `load` the processor finds exactly the pages of `AtLoad`, with their
    frames and rights (`addressSpace_exact`).  From it follow which pages are
    writable and executable at once (`writable_executable_iff`), that the heap is
    ready (`heap_ready`), when the whole stack is still there
    (`stack_kept_iff`), and that no frame in use counts as free
    (`free_frames_unused`). -/

namespace KermolBootMap

open RustEffect X86Paging KermolFrameAllocator KermolPageTable KermolPageTree
open KermolMapStep KermolPageTableRun KermolBootTables KermolContiguous KermolPageMap
open KermolFrameBitmap KermolController KermolInitMemory KermolPrepared KermolKernelMap
open KermolBitmap KermolAddressSpace

/-! ## What the processor finds -/

section Space

variable {b : BootInfo} {kSect : MemoryRegionInfo} {mem : PhysMem}
  {c : KernelPagingController} {heapVirt : VirtAddr} {root : PhysAddr} {page : Nat}
  {m : Mapping} {v : VirtAddr}

namespace Space

/-- The processor finds the mappings that boot asks for, -/
theorem hardware (h : Space b kSect root c) (hv : pageIndex 4 v ≠ RECURSIVE)
    (t : Translation) :
    hardwareWalk c.mem root v = some t ↔ ∃ m, AtLoad b kSect v.page m ∧ t = m.translation v := by
  constructor
  · intro ht
    cases hleaf : leafEntry root c.mem v with
    | none => cases (hardwareWalk_none h.wf hv hleaf).symm.trans ht
    | some e =>
        obtain ⟨m, hm, rfl⟩ := (h.leaves v hv e).mp hleaf
        exact ⟨m, hm, Option.some.inj (ht.symm.trans (hardwareWalk_some h.wf hv m hleaf))⟩
  · rintro ⟨m, hm, rfl⟩
    exact hardwareWalk_some h.wf hv m ((h.leaves v hv _).mpr ⟨m, hm, rfl⟩)

/-- and so does `translate`. -/
theorem translate (h : Space b kSect root c) (hv : pageIndex 4 v ≠ RECURSIVE) (q : PhysAddr) :
    c.translate v = .ok (some q) ↔ ∃ m, AtLoad b kSect v.page m ∧ q = m.phys v := by
  show c.recPageTable.translate c.mem v = _ ↔ _
  rw [translate_eq hv h.wf, Except.ok.injEq, Option.map_eq_some_iff]
  constructor
  · rintro ⟨e, hleaf, rfl⟩
    obtain ⟨m, hm, rfl⟩ := (h.leaves v hv e).mp hleaf
    exact ⟨m, hm, physAt_entry m v⟩
  · rintro ⟨m, hm, rfl⟩
    exact ⟨m.entry, (h.leaves v hv _).mpr ⟨m, hm, rfl⟩, physAt_entry m v⟩

end Space

/-- **EXACTLY THIS ADDRESS SPACE.**  If `init_memory` gets to `load`, `load` writes the
    address of a level-4 table to `CR3`, and outside the recursive slot the
    processor finds the mappings of `AtLoad` and no others, with their frames,
    flags and rights.  `translate` finds the same. -/
theorem addressSpace_exact (b : BootInfo) (mem : PhysMem) (c : KernelPagingController)
    (heapVirt : VirtAddr) (hstack : b.StackOutside)
    (h : prepareMemory b mem = .ok (.ok (c, heapVirt))) :
    ∃ kSect root pt', kernelRegion b = some kSect ∧ c.recPageTable.load = .ok (pt', root)
      ∧ ∀ v, pageIndex 4 v ≠ RECURSIVE →
        (∀ t, hardwareWalk c.mem root v = some t
          ↔ ∃ m, AtLoad b kSect v.page m ∧ t = m.translation v)
        ∧ ∀ q, c.translate v = .ok (some q)
          ↔ ∃ m, AtLoad b kSect v.page m ∧ q = m.phys v := by
  obtain ⟨⟨kSect, root, hspace⟩, -⟩ := prepareMemory_space hstack h
  refine ⟨kSect, root, _, hspace.kernel, load_eq hspace.wf, fun v hv => ?_⟩
  exact ⟨hspace.hardware hv, hspace.translate hv⟩

theorem addressSpace_exact_sample :
    ∃ c heapVirt kSect root pt', prepareMemory sampleBoot sampleState.mem
        = .ok (.ok (c, heapVirt))
      ∧ c.recPageTable.load = .ok (pt', root)
      ∧ ∀ v, pageIndex 4 v ≠ RECURSIVE → ∀ t, hardwareWalk c.mem root v = some t
        ↔ ∃ m, AtLoad sampleBoot kSect v.page m ∧ t = m.translation v := by
  obtain ⟨c, heapVirt, h⟩ := prepareMemory_total sampleBoot_bootable sampleState.mem
  obtain ⟨kSect, root, pt', -, hload, hview⟩ :=
    addressSpace_exact sampleBoot sampleState.mem c heapVirt sampleBoot_stackOutside h
  exact ⟨c, heapVirt, kSect, root, pt', h, hload, fun v hv => (hview v hv).1⟩

/-! ## Who may write and execute -/

/-- The pages of the regions that `map_misc` maps. -/
def miscPageNumbers (b : BootInfo) : List Nat := b.miscPages.map fun m => m.2 / PAGE_SIZE

theorem mem_miscPart {page : Nat} :
    page ∈ miscPageNumbers b ↔ ∃ frame flags, (page, frame, flags) ∈ miscPart b := by
  simp [miscPageNumbers, miscPart, flagged]

/-- No part of the kernel is writable and executable. -/
theorem kernelPart_rights {t : Nat × Nat × PageTableFlags} (h : t ∈ kernelPart b kSect) :
    t.2.2.contains .WRITABLE = false ∨ t.2.2.contains .NO_EXECUTE = true := by
  rcases (mem_kernelPart h).1 with hf | hf | hf
  · exact Or.inr (by rw [hf]; decide)
  · exact Or.inl (by rw [hf]; decide)
  · exact Or.inr (by rw [hf]; decide)

/-- A mapping that can be written and executed belongs to a region that `map_misc` has
    mapped. -/
theorem AtLoad.of_rights (h : AtLoad b kSect page m)
    (hw : m.flags.contains .WRITABLE = true) (hx : m.flags.contains .NO_EXECUTE = false) :
    page ∈ miscPageNumbers b ∧ page ≠ b.stackTop / PAGE_SIZE ∧ page ∉ stackPages b := by
  have hrw : flagsRw.contains .NO_EXECUTE = true := by decide
  rcases h with hheap | ⟨hguard, flags, hmem, hflags⟩
  · have hflags : m.flags = flagsRw := (mem_flagged.mp hheap).1
    rw [hflags, hrw] at hx
    cases hx
  · by_cases hstack : page ∈ stackPages b
    · rw [hflags, if_pos hstack, hrw] at hx
      cases hx
    · rw [if_neg hstack] at hflags
      subst hflags
      rcases List.mem_append.mp hmem with hkernel | hmisc
      -- the kernel has no such page
      · have hnone : m.flags.contains .WRITABLE = false
            ∨ m.flags.contains .NO_EXECUTE = true := kernelPart_rights hkernel
        rw [hw, hx] at hnone
        rcases hnone with hn | hn <;> cases hn
      · exact ⟨mem_miscPart.mpr ⟨_, _, hmisc⟩, hguard, hstack⟩

/-- A page of these regions is there unless it is the guard page, with the flags
    that `remap_stack` leaves it. -/
theorem Space.misc_at (h : Space b kSect root c) (hv : pageIndex 4 v ≠ RECURSIVE) {frame : Nat}
    {flags : PageTableFlags} (hmem : (v.page, frame, flags) ∈ miscPart b)
    (hguard : v.page ≠ b.stackTop / PAGE_SIZE) :
    ∃ t, hardwareWalk c.mem root v = some t ∧ t.phys = frame + v.addr % PAGE_SIZE
      ∧ t.writable = true ∧ t.noExecute = decide (v.page ∈ stackPages b) := by
  have hflags : flags = flagsRwx := (mem_flagged.mp hmem).1
  subst hflags
  have hsound := h.early _ (List.mem_append_right _ hmem)
  have hhere : ∀ m : Mapping, m.frame.addr = frame →
      m.flags = (if v.page ∈ stackPages b then flagsRw else flagsRwx) →
      hardwareWalk c.mem root v = some (m.translation v) := by
    rintro m rfl hm
    exact (h.hardware hv _).mpr
      ⟨m, Or.inr ⟨hguard, flagsRwx, List.mem_append_right _ hmem, hm⟩, rfl⟩
  by_cases hstack : v.page ∈ stackPages b
  · refine ⟨_, hhere ⟨⟨frame, hsound.frame⟩, flagsRw, hsound.aligned, flagsRw_present⟩ rfl
      (if_pos hstack).symm, rfl, ?_, ?_⟩
    · show flagsRw.contains .WRITABLE = true
      decide
    · rw [decide_eq_true hstack]
      show flagsRw.contains .NO_EXECUTE = true
      decide
  · refine ⟨_, hhere ⟨⟨frame, hsound.frame⟩, flagsRwx, hsound.aligned, flagsRwx_present⟩ rfl
      (if_neg hstack).symm, rfl, ?_, ?_⟩
    · show flagsRwx.contains .WRITABLE = true
      decide
    · rw [decide_eq_false hstack]
      show flagsRwx.contains .NO_EXECUTE = false
      decide

theorem Space.misc (h : Space b kSect root c) (hv : pageIndex 4 v ≠ RECURSIVE)
    (hmisc : v.page ∈ miscPageNumbers b) (hguard : v.page ≠ b.stackTop / PAGE_SIZE) :
    ∃ t, hardwareWalk c.mem root v = some t ∧ t.writable = true
      ∧ t.noExecute = decide (v.page ∈ stackPages b) := by
  obtain ⟨frame, flags, hmem⟩ := mem_miscPart.mp hmisc
  obtain ⟨t, ht, -, hrights⟩ := h.misc_at hv hmem hguard
  exact ⟨t, ht, hrights⟩

/-- A page of the kernel is not writable and executable. -/
theorem Space.kernel_rights (h : Space b kSect root c) (hv : pageIndex 4 v ≠ RECURSIVE)
    {m : Nat × Nat} (hm : m ∈ b.kernelPagesIn kSect) (hpage : m.2 / PAGE_SIZE = v.page)
    {t : Translation} (ht : hardwareWalk c.mem root v = some t) :
    ¬ (t.writable = true ∧ t.noExecute = false) := by
  rintro ⟨hw, hx⟩
  obtain ⟨-, hguard, hstack⟩ : v.page ∈ miscPageNumbers b ∧ v.page ≠ b.stackTop / PAGE_SIZE
      ∧ v.page ∉ stackPages b := by
    obtain ⟨m', hm', rfl⟩ := (h.hardware hv t).mp ht
    exact hm'.of_rights hw hx
  -- the page has the flags of its section, since it is neither guard page nor stack
  obtain ⟨flags, hmem⟩ := kernelPart_of_mem hm
  rw [hpage] at hmem
  have hsound := h.early _ (List.mem_append_left _ hmem)
  have hsection := (h.hardware hv _).mpr
    ⟨hsound.mapping, Or.inr ⟨hguard, flags, List.mem_append_left _ hmem, (if_neg hstack).symm⟩, rfl⟩
  obtain rfl := Option.some.inj (ht.symm.trans hsection)
  rcases kernelPart_rights hmem with hn | hn
  · cases hn.symm.trans hw
  · cases hn.symm.trans hx

/-- A page of the heap is not executable. -/
theorem Space.heap_rights (h : Space b kSect root c) (hv : pageIndex 4 v ≠ RECURSIVE)
    {m : Nat × Nat} (hm : m ∈ b.heapMappings) (hpage : m.2 / PAGE_SIZE = v.page)
    {t : Translation} (ht : hardwareWalk c.mem root v = some t) : t.noExecute = true := by
  have hmem : (v.page, m.1, flagsRw) ∈ heapPart b := mem_flagged.mpr ⟨rfl, m, hm, hpage, rfl⟩
  have hmap := h.heap m hm
  have hheap := (h.hardware hv _).mpr
    ⟨⟨⟨m.1, hmap.phys⟩, flagsRw, hmap.aligned, flagsRw_present⟩, Or.inl hmem, rfl⟩
  obtain rfl := Option.some.inj (ht.symm.trans hheap)
  show flagsRw.contains .NO_EXECUTE = true
  decide

/-- **WRITABLE AND EXECUTABLE.**  At `load` the processor may both write and execute
    exactly the pages of the regions that `map_misc` maps, but for the guard
    page and the stack.  No page of the kernel or of the heap is among them. -/
theorem writable_executable_iff (b : BootInfo) (mem : PhysMem) (c : KernelPagingController)
    (heapVirt : VirtAddr) (hstack : b.StackOutside)
    (h : prepareMemory b mem = .ok (.ok (c, heapVirt))) :
    ∃ root pt', c.recPageTable.load = .ok (pt', root)
      ∧ ∀ v, pageIndex 4 v ≠ RECURSIVE →
        ((∃ t, hardwareWalk c.mem root v = some t ∧ t.writable = true ∧ t.noExecute = false)
          ↔ v.page ∈ miscPageNumbers b ∧ v.page ≠ b.stackTop / PAGE_SIZE
            ∧ v.page ∉ stackPages b)
        ∧ ∀ m ∈ b.kernelPages ++ b.heapMappings, m.2 / PAGE_SIZE = v.page →
          ∀ t, hardwareWalk c.mem root v = some t →
            ¬ (t.writable = true ∧ t.noExecute = false) := by
  obtain ⟨⟨kSect, root, hspace⟩, -⟩ := prepareMemory_space hstack h
  refine ⟨root, _, load_eq hspace.wf, fun v hv => ⟨⟨?_, ?_⟩, fun m hm hpage t ht => ?_⟩⟩
  · rintro ⟨t, ht, hw, hx⟩
    obtain ⟨m, hm, rfl⟩ := (hspace.hardware hv t).mp ht
    exact hm.of_rights hw hx
  · rintro ⟨hmisc, hguard, hnot⟩
    obtain ⟨t, ht, hw, hx⟩ := hspace.misc hv hmisc hguard
    rw [decide_eq_false hnot] at hx
    exact ⟨t, ht, hw, hx⟩
  · rcases List.mem_append.mp hm with hkernel | hheap
    · rw [BootInfo.kernelPages_eq hspace.kernel] at hkernel
      exact hspace.kernel_rights hv hkernel hpage ht
    · rintro ⟨-, hx⟩
      cases (hspace.heap_rights hv hheap hpage ht).symm.trans hx

/-- The loader's first page can be written and executed, the kernel's cannot. -/
theorem writable_executable_sample :
    ∃ c heapVirt root pt', prepareMemory sampleBoot sampleState.mem = .ok (.ok (c, heapVirt))
      ∧ c.recPageTable.load = .ok (pt', root)
      ∧ (∃ t, hardwareWalk c.mem root ⟨0xFFFF800000100000, by decide⟩ = some t
        ∧ t.writable = true ∧ t.noExecute = false)
      ∧ ∀ t, hardwareWalk c.mem root ⟨0xFFFFFFFF80000000, by decide⟩ = some t →
        ¬ (t.writable = true ∧ t.noExecute = false) := by
  obtain ⟨c, heapVirt, h⟩ := prepareMemory_total sampleBoot_bootable sampleState.mem
  obtain ⟨root, pt', hload, hiff⟩ :=
    writable_executable_iff sampleBoot sampleState.mem c heapVirt sampleBoot_stackOutside h
  refine ⟨c, heapVirt, root, pt', h, hload,
    (hiff _ (by decide)).1.mpr ⟨?_, by decide, by decide⟩,
    (hiff _ (by decide)).2 (0x800000, 0xFFFFFFFF80000000) ?_ rfl⟩
  · rw [miscPageNumbers, sampleBoot_miscPages]
    decide
  · rw [sampleBoot_kernelPages]
    exact List.mem_append_left _ (mem_pagesFrom.mpr ⟨0, by decide, rfl⟩)

/-! ## The heap -/

/-- A byte of a page that can be mapped has an address outside the slot. -/
theorem Mappable.byte {m : Nat × Nat} (h : Mappable m) (hal : m.2 % PAGE_SIZE = 0) {i : Nat}
    (hi : i < PAGE_SIZE) :
    ∃ v : VirtAddr, v.addr = m.2 + i ∧ pageIndex 4 v ≠ RECURSIVE := by
  obtain ⟨w, hw, hout⟩ := h.virt
  have hcan := w.canonical
  rw [hw] at hcan
  have hcan' : IsCanonical (m.2 + i) := by
    unfold IsCanonical PAGE_SIZE at *
    omega
  refine ⟨⟨m.2 + i, hcan'⟩, rfl, fun hrec => hout (Fin.ext ?_)⟩
  have hslot : (m.2 + i) / 2 ^ 39 % 512 = 510 := congrArg Fin.val hrec
  show w.addr / 2 ^ 39 % 512 = 510
  rw [hw, ← hslot]
  unfold PAGE_SIZE at *
  omega

/-- A byte of a run of pages: its address, its page, and where it lies. -/
theorem pagesFrom_byte {phys virt n i : Nat} (h : ∀ m ∈ pagesFrom phys virt n, Mappable m)
    (hal : virt % PAGE_SIZE = 0) (hi : i < n * PAGE_SIZE) :
    ∃ v : VirtAddr, v.addr = virt + i ∧ pageIndex 4 v ≠ RECURSIVE
      ∧ ∃ m ∈ pagesFrom phys virt n, m.2 / PAGE_SIZE = v.page
        ∧ m.1 + v.addr % PAGE_SIZE = phys + i := by
  have hpage : (phys + i / PAGE_SIZE * PAGE_SIZE, virt + i / PAGE_SIZE * PAGE_SIZE)
      ∈ pagesFrom phys virt n :=
    mem_pagesFrom.mpr ⟨i / PAGE_SIZE, Nat.div_lt_of_lt_mul (Nat.mul_comm n _ ▸ hi), rfl⟩
  obtain ⟨v, hv, hout⟩ := Mappable.byte (h _ hpage) (i := i % PAGE_SIZE) (by
    dsimp only
    rw [Nat.add_mul_mod_self_right]
    exact hal) (Nat.mod_lt _ (by decide))
  dsimp only at hv
  rw [Nat.add_assoc, Nat.div_add_mod'] at hv
  refine ⟨v, hv, hout, _, hpage, ?_, ?_⟩
  · show _ = v.addr / PAGE_SIZE
    rw [hv]
    unfold PAGE_SIZE at *
    omega
  · dsimp only
    rw [hv]
    unfold PAGE_SIZE at *
    omega

/-- **THE HEAP IS READY.**  Every byte that `init_heap` gives away is mapped at `load`:
    it lies in the frames that were taken for the heap, in order, and can be
    written but not executed. -/
theorem heap_ready (b : BootInfo) (mem : PhysMem) (c : KernelPagingController)
    (heapVirt : VirtAddr) (hstack : b.StackOutside)
    (h : prepareMemory b mem = .ok (.ok (c, heapVirt))) :
    ∃ root pt', c.recPageTable.load = .ok (pt', root)
      ∧ ∀ i < KERNEL_HEAP_SIZE, ∃ (v : VirtAddr) (t : Translation),
        v.addr = heapVirt.addr + i ∧ hardwareWalk c.mem root v = some t
        ∧ t.phys = b.allocatorBase + i ∧ t.writable = true ∧ t.noExecute = true := by
  obtain ⟨⟨kSect, root, hspace⟩, hvirt⟩ := prepareMemory_space hstack h
  refine ⟨root, _, load_eq hspace.wf, fun i hi => ?_⟩
  have hfirst : (b.allocatorBase, b.allocatorBase + b.hhdm.offset.addr) ∈ b.heapMappings :=
    mem_pagesFrom.mpr ⟨0, by decide, by simp⟩
  have hal : (b.allocatorBase + b.hhdm.offset.addr) % PAGE_SIZE = 0 := by
    have hbase : b.allocatorBase % PAGE_SIZE = 0 := (hspace.heap _ hfirst).aligned
    have hoff := b.hhdm.aligned
    unfold PAGE_SIZE at *
    omega
  obtain ⟨v, hv, hout, page, hpage, hnumber, hplace⟩ := pagesFrom_byte hspace.heap hal hi
  have hmap := hspace.heap _ hpage
  let m : Mapping := ⟨⟨_, hmap.phys⟩, flagsRw, hmap.aligned, flagsRw_present⟩
  have hm : AtLoad b kSect v.page m := Or.inl (mem_flagged.mpr ⟨rfl, page, hpage, hnumber, rfl⟩)
  refine ⟨v, m.translation v, ?_, (hspace.hardware hout _).mpr ⟨m, hm, rfl⟩, hplace, ?_, ?_⟩
  · rw [hv, hvirt]
  · show flagsRw.contains .WRITABLE = true
    decide
  · show flagsRw.contains .NO_EXECUTE = true
    decide

theorem heap_ready_sample :
    ∃ c heapVirt root pt', prepareMemory sampleBoot sampleState.mem = .ok (.ok (c, heapVirt))
      ∧ c.recPageTable.load = .ok (pt', root)
      ∧ ∃ (v : VirtAddr) (t : Translation), v.addr = heapVirt.addr + 4194303
        ∧ hardwareWalk c.mem root v = some t ∧ t.phys = 0x13FFFFF := by
  obtain ⟨c, heapVirt, h⟩ := prepareMemory_total sampleBoot_bootable sampleState.mem
  obtain ⟨root, pt', hload, hbytes⟩ :=
    heap_ready sampleBoot sampleState.mem c heapVirt sampleBoot_stackOutside h
  obtain ⟨v, t, hv, ht, hphys, -, -⟩ := hbytes 4194303 (by decide)
  exact ⟨c, heapVirt, root, pt', h, hload, v, t, hv, ht, hphys⟩

/-! ## The stack -/

/-- The guard page follows on the pages that `remap_stack` makes writable. -/
theorem mem_stackPages (hsize : STACK_SIZE ≤ b.stackTop) {page : Nat} :
    page ∈ stackPages b
      ↔ (b.stackTop - STACK_SIZE) / PAGE_SIZE ≤ page ∧ page < b.stackTop / PAGE_SIZE := by
  simp only [stackPages, stepBy, List.mem_map, List.mem_range, exists_exists_and_eq_and]
  unfold STACK_SIZE PAGE_SIZE at *
  constructor
  · rintro ⟨i, hi, rfl⟩
    omega
  · rintro ⟨hle, hlt⟩
    exact ⟨page - (b.stackTop - 64 * 1024) / 4096, by omega, by omega⟩

/-- `remap_stack` has computed both ends of the stack. -/
theorem prepareMemory_stack (h : prepareMemory b mem = .ok (.ok (c, heapVirt))) :
    IsCanonical b.stackTop ∧ STACK_SIZE ≤ b.stackTop := by
  obtain ⟨region, entry, heapPhys, s₀, s₁, s₂, maps, bits, -, hentry, -, -, -, hinit, -⟩ :=
    prepareMemory_steps h
  obtain ⟨kSect, t₀, t₁, t₂, t₃, -, -, -, -, hremap, -⟩ := initPaging_steps hinit
  obtain ⟨stackTop, htop, hremap⟩ := bind_eq_ok.mp hremap
  obtain ⟨stackBottom, hbottom, -⟩ := bind_eq_ok.mp hremap
  have htop' : stackTop.addr = b.stackTop := by
    rw [VirtAddr.add_eq_ok.mp htop, hentry, BootInfo.stackTop]
  rw [VirtAddr.sub] at hbottom
  split at hbottom
  · next hle => exact ⟨htop' ▸ stackTop.canonical, htop' ▸ hle⟩
  · cases hbottom

/-- The guard page is gone, if the heap does not bring it back. -/
theorem Space.guard (h : Space b kSect root c) (hv : pageIndex 4 v ≠ RECURSIVE)
    (hguard : v.page = b.stackTop / PAGE_SIZE)
    (hheap : ∀ m ∈ b.heapMappings, m.2 / PAGE_SIZE ≠ b.stackTop / PAGE_SIZE) :
    hardwareWalk c.mem root v = none := by
  cases hwalk : hardwareWalk c.mem root v with
  | none => rfl
  | some t =>
      obtain ⟨m, hm | ⟨hnot, -⟩, -⟩ := (h.hardware hv t).mp hwalk
      · obtain ⟨-, m', hm', hpage, -⟩ := mem_flagged.mp hm
        exact absurd (hpage.trans hguard) (hheap m' hm')
      · exact absurd hguard hnot

/-- The first address of the guard page. -/
theorem guardPage (htop : IsCanonical b.stackTop) (hstack : b.StackOutside) :
    ∃ v : VirtAddr, v.addr = b.stackTop - b.stackTop % PAGE_SIZE
      ∧ pageIndex 4 v ≠ RECURSIVE ∧ v.page = b.stackTop / PAGE_SIZE := by
  have hout := hstack ⟨b.stackTop, htop⟩ (Or.inl rfl)
  have hcan : IsCanonical (b.stackTop - b.stackTop % PAGE_SIZE) := by
    unfold IsCanonical PAGE_SIZE at *
    omega
  refine ⟨⟨_, hcan⟩, rfl, fun hrec => hout (Fin.ext ?_), ?_⟩
  · have hslot : (b.stackTop - b.stackTop % PAGE_SIZE) / 2 ^ 39 % 512 = 510 :=
      congrArg Fin.val hrec
    show b.stackTop / 2 ^ 39 % 512 = 510
    rw [← hslot]
    unfold PAGE_SIZE
    omega
  · show (b.stackTop - b.stackTop % PAGE_SIZE) / PAGE_SIZE = _
    unfold PAGE_SIZE
    omega

/-- **THE STACK AT `load`.**  The stack is part of the loader's memory, and the heap is
    not.  The whole stack is mapped, writable and not executable, if and only
    if its top is a page boundary: else the guard page is its topmost page.  The
    memory below the stack, where an overflow goes, stays writable: the guard
    page is at the other end. -/
theorem stack_kept_iff (b : BootInfo) (mem : PhysMem) (c : KernelPagingController)
    (heapVirt : VirtAddr) (hstack : b.StackOutside)
    (hloader : ∀ a, b.stackTop - STACK_SIZE ≤ a → a < b.stackTop →
      a / PAGE_SIZE ∈ miscPageNumbers b)
    (hheap : ∀ m ∈ b.heapMappings, m.2 / PAGE_SIZE ≠ b.stackTop / PAGE_SIZE)
    (h : prepareMemory b mem = .ok (.ok (c, heapVirt))) :
    ∃ root pt', c.recPageTable.load = .ok (pt', root)
      ∧ ((∀ v, pageIndex 4 v ≠ RECURSIVE → b.stackTop - STACK_SIZE ≤ v.addr →
          v.addr < b.stackTop → ∃ t, hardwareWalk c.mem root v = some t
            ∧ t.writable = true ∧ t.noExecute = true)
        ↔ b.stackTop % PAGE_SIZE = 0)
      ∧ ∀ v, pageIndex 4 v ≠ RECURSIVE → v.page ∈ miscPageNumbers b →
        v.page < (b.stackTop - STACK_SIZE) / PAGE_SIZE →
        ∃ t, hardwareWalk c.mem root v = some t ∧ t.writable = true := by
  obtain ⟨⟨kSect, root, hspace⟩, -⟩ := prepareMemory_space hstack h
  obtain ⟨htop, hsize⟩ := prepareMemory_stack h
  refine ⟨root, _, load_eq hspace.wf, ⟨?_, ?_⟩, ?_⟩
  · intro hall
    by_contra hcut
    obtain ⟨v, hv, hout, hpage⟩ := guardPage htop hstack
    have hin : b.stackTop - STACK_SIZE ≤ v.addr ∧ v.addr < b.stackTop := by
      rw [hv]
      unfold STACK_SIZE PAGE_SIZE at *
      omega
    obtain ⟨t, ht, -, -⟩ := hall v hout hin.1 hin.2
    rw [hspace.guard hout hpage hheap] at ht
    cases ht
  · intro hal v hout hlo hhi
    have hpages : v.page ∈ stackPages b := by
      rw [mem_stackPages hsize]
      unfold VirtAddr.page STACK_SIZE PAGE_SIZE at *
      omega
    have hguard : v.page ≠ b.stackTop / PAGE_SIZE := by
      have hlt := ((mem_stackPages hsize).mp hpages).2
      omega
    obtain ⟨t, ht, hw, hx⟩ := hspace.misc hout (hloader v.addr hlo hhi) hguard
    rw [decide_eq_true hpages] at hx
    exact ⟨t, ht, hw, hx⟩
  · intro v hout hmisc hbelow
    have hguard : v.page ≠ b.stackTop / PAGE_SIZE := by
      have hle : (b.stackTop - STACK_SIZE) / PAGE_SIZE ≤ b.stackTop / PAGE_SIZE :=
        Nat.div_le_div_right (Nat.sub_le _ _)
      omega
    obtain ⟨t, ht, hw, -⟩ := hspace.misc hout hmisc hguard
    exact ⟨t, ht, hw⟩

/-- The stack of the sample is kept, and the byte below it can be written. -/
theorem stack_kept_sample :
    ∃ c heapVirt root pt', prepareMemory sampleBoot sampleState.mem = .ok (.ok (c, heapVirt))
      ∧ c.recPageTable.load = .ok (pt', root)
      ∧ ∃ t, hardwareWalk c.mem root ⟨0xFFFF80000016FFFF, by decide⟩ = some t
        ∧ t.writable = true := by
  obtain ⟨c, heapVirt, h⟩ := prepareMemory_total sampleBoot_bootable sampleState.mem
  have hmisc : ∀ a, 0xFFFF800000100000 ≤ a → a < 0xFFFF800000200000 →
      a / PAGE_SIZE ∈ miscPageNumbers sampleBoot := by
    intro a hlo hhi
    rw [miscPageNumbers, sampleBoot_miscPages, List.map_append, pagesFrom_pages]
    refine List.mem_append_left _ (List.mem_range'_1.mpr ?_)
    unfold PAGE_SIZE
    omega
  have hloader : ∀ a, sampleBoot.stackTop - STACK_SIZE ≤ a → a < sampleBoot.stackTop →
      a / PAGE_SIZE ∈ miscPageNumbers sampleBoot := by
    intro a hlo hhi
    rw [sampleBoot_stackTop, STACK_SIZE] at *
    exact hmisc a (by omega) (by omega)
  have hheap : ∀ m ∈ sampleBoot.heapMappings,
      m.2 / PAGE_SIZE ≠ sampleBoot.stackTop / PAGE_SIZE := by
    intro m hm
    rw [sampleBoot_heapMappings] at hm
    obtain ⟨i, hi, rfl⟩ := mem_pagesFrom.mp hm
    rw [sampleBoot_stackTop]
    unfold PAGE_SIZE
    dsimp only
    omega
  obtain ⟨root, pt', hload, -, hbelow⟩ := stack_kept_iff sampleBoot sampleState.mem c heapVirt
    sampleBoot_stackOutside hloader hheap h
  exact ⟨c, heapVirt, root, pt', h, hload,
    hbelow _ (by decide) (hmisc _ (by decide) (by decide)) (by decide)⟩

/-! ## The frames that are free -/

open MemoryRegionInfo ByteBits

/-- `flag_range` clears no bit outside its range. -/
theorem flagRange_clear {a a' : BitmapAllocator} {lo hi i : Nat}
    (h : a.flagRange lo hi false = .ok (.ok (), a')) (hclear : bitAt a'.bitmap i = false) :
    bitAt a.bitmap i = false ∨ lo ≤ i ∧ i < hi := by
  rcases Nat.lt_trichotomy lo hi with hlt | rfl | hgt
  · obtain ⟨_, heq, -, hbit⟩ := BitmapAllocator.flagRange_ok false hlt.le
      (BitmapAllocator.flagRange_bound hlt h)
    cases heq.symm.trans h
    rw [hbit i, BitmapAllocator.flagged] at hclear
    split at hclear
    · exact Or.inr (by omega)
    · rw [Bool.false_and, Bool.or_false] at hclear
      exact Or.inl hclear
  · rw [BitmapAllocator.flagRange_self h] at hclear
    exact Or.inl hclear
  · rw [BitmapAllocator.flagRange, if_pos hgt] at h
    split at h
    · cases h
    · cases h

/-- A clear bit is the bit of a frame in a Usable region. -/
theorem clearUsable_holds {regions : List MemoryRegionInfo} :
    ∀ {a a' : BitmapAllocator}, BitmapFrameAllocator.clearUsable regions a = .ok a' →
      ∀ i, bitAt a'.bitmap i = false →
        bitAt a.bitmap i = false ∨ ∃ r ∈ regions, r.Holds i := by
  induction regions with
  | nil =>
      intro a a' h i hi
      cases h
      exact Or.inl hi
  | cons r regions ih =>
      intro a a' h i hi
      rw [BitmapFrameAllocator.clearUsable] at h
      split at h
      · next htype =>
          obtain ⟨⟨answer, a₁⟩, hflag, h⟩ := bind_eq_ok.mp h
          cases answer with
          | error e => cases h
          | ok _ =>
              rcases ih h i hi with hclear | ⟨q, hq, hholds⟩
              · rcases flagRange_clear hflag hclear with hold | hin
                · exact Or.inl hold
                · exact Or.inr ⟨r, List.mem_cons_self, htype, hin⟩
              · exact Or.inr ⟨q, List.mem_cons_of_mem r hq, hholds⟩
      · rcases ih h i hi with hclear | ⟨q, hq, hholds⟩
        · exact Or.inl hclear
        · exact Or.inr ⟨q, List.mem_cons_of_mem r hq, hholds⟩

/-- Only the Usable regions are free in a new bitmap. -/
theorem makeBitmaps_holds {pt : RecursivePageTable} {s s' : PagingState LinearFrameAllocator}
    {size : Nat} {maps : BitmapFrameAllocator × VirtualMemoryAllocator}
    (h : makeBitmaps b pt size s = .ok (.ok maps, s')) {f : Nat} (hf : f < size * 8)
    (hclear : bitAt maps.1.bits.bitmap f = false) : ∃ r ∈ b.rammapEntries, r.Holds f := by
  obtain ⟨frames, s₁, h₁, h⟩ := andThen_eq_ok h
  obtain ⟨virt, s₂, h₂, h⟩ := andThen_eq_ok h
  cases h
  obtain ⟨hframes, -⟩ := onAllocator_eq_ok h₁
  obtain ⟨a, la, hnew, hrest⟩ := andThen_eq_ok hframes
  obtain ⟨a', hloop, hdone⟩ := bind_eq_ok.mp hrest
  cases hdone
  obtain ⟨_, hr, hbuilt⟩ := bitmapNew_cases hnew
  cases hr
  rcases clearUsable_holds hloop f hclear with hset | hholds
  · rw [hbuilt.bitAt hf] at hset
    cases hset
  · exact hholds

/-- What the linear allocator has handed out lies between the start of its region and
    its cursor, and the frames there are not free. -/
structure Taken (b : BootInfo) (c : KernelPagingController) (cursor : Nat) : Prop where
  base : b.allocatorBase % PAGE_SIZE = 0
  end_ : cursor % PAGE_SIZE = 0
  heap : b.heapEnd ≤ cursor
  tables : ∀ n ∈ c.tableFrames, b.heapEnd ≤ n ∧ n < cursor
  frames : ∀ j < c.frameAllocator.bits.bitmap.length,
    b.heapEnd ≤ c.frameAllocator.bits.ptr.addr - c.recPageTable.internalOffset + j
      ∧ c.frameAllocator.bits.ptr.addr - c.recPageTable.internalOffset + j < cursor
  pages : ∀ j < c.virtMemAllocator.bits.bitmap.length,
    b.heapEnd ≤ c.virtMemAllocator.bits.ptr.addr - c.recPageTable.internalOffset + j
      ∧ c.virtMemAllocator.bits.ptr.addr - c.recPageTable.internalOffset + j < cursor
  free : ∀ f < 8 * c.frameAllocator.bits.bitmap.length,
    bitAt c.frameAllocator.bits.bitmap f = false →
    ¬ (b.allocatorBase / PAGE_SIZE ≤ f ∧ f < cursor / PAGE_SIZE)
      ∧ ∃ r ∈ b.rammapEntries, r.Holds f

/-- **WHAT BOOT HAS TAKEN.** -/
theorem prepareMemory_taken (hstack : b.StackOutside)
    (h : prepareMemory b mem = .ok (.ok (c, heapVirt))) : ∃ cursor, Taken b c cursor := by
  obtain ⟨region, entry, heapPhys, s₀, s₁, s₂, maps, bits, -, hentry, hphys, -, hcur₀, hinit,
    hmap, hflag, hframes, hvirt, hmem⟩ := prepareMemory_steps h
  obtain ⟨root, bitmaps, hpaged⟩ := initPaging_cases hentry hstack hinit
  have hplaced := mapContiguous_placed (by decide) hpaged.boot hmap
  obtain ⟨kSect, t₀, t₁, t₂, t₃, -, -, -, -, -, hbitmaps⟩ := initPaging_steps hinit
  have hbefore := hpaged.before
  have hbehind := hpaged.behind
  have hle := hplaced.grown.le
  have hpages := hpaged.start
  rw [hcur₀] at hbefore hpages
  rw [BootInfo.bitmapPages, Nat.add_mul] at hbehind
  have hshape := BitmapAllocator.flagRange_shape hflag
  have hslice := hpaged.frames.of_shape hshape
  have hsliceV := hpaged.pages
  have hsize := le_sizeInPages b.sizeBytes
  have hsize₂ := le_sizeInPages (b.sizeBytes * 2)
  have hend : b.heapEnd = b.allocatorBase + 4 * 1024 * 1024 := rfl
  have hbase : b.allocatorBase % PAGE_SIZE = 0 := by
    unfold PAGE_SIZE at *
    omega
  have hlt : b.allocatorBase / PAGE_SIZE < s₂.alloc.cursor.addr / PAGE_SIZE := by
    unfold PAGE_SIZE at *
    omega
  refine ⟨s₂.alloc.cursor.addr, hbase, hplaced.boot.cursor, by omega, ?_, ?_, ?_, ?_⟩
  · intro n hn
    rw [KernelPagingController.tableFrames, hplaced.boot.wf.frameOf_lvl4, hmem] at hn
    have hn' : n ∈ tables root s₂.mem := hn
    rw [hplaced.grown.tables_eq, hpaged.tables_eq, hcur₀] at hn'
    rcases hn' with ⟨hlo, hhi, -⟩ | ⟨hlo, hhi, -⟩
    · exact ⟨hlo, by omega⟩
    · exact ⟨by omega, hhi⟩
  · intro j hj
    rw [hframes] at hj ⊢
    rw [hslice.length] at hj
    rw [hslice.ptr]
    omega
  · intro j hj
    rw [hvirt] at hj ⊢
    rw [hsliceV.length] at hj
    rw [hsliceV.ptr]
    omega
  · intro f hf hclear
    rw [hframes] at hf hclear
    obtain ⟨_, heq, -, hbit⟩ := BitmapAllocator.flagRange_ok true hlt.le
      (BitmapAllocator.flagRange_bound hlt hflag)
    cases heq.symm.trans hflag
    rw [hbit f, BitmapAllocator.flagged] at hclear
    split at hclear
    · cases hclear
    · rw [Bool.or_eq_false_iff, Bool.true_and, decide_eq_false_iff_not] at hclear
      refine ⟨hclear.2, makeBitmaps_holds hbitmaps ?_ hclear.1⟩
      rw [hslice.length] at hf
      omega

/-- What Limine promises: Usable regions begin on page boundaries and share no byte with
    the others, and the kernel's frames are in the others. -/
structure MemoryMapOk (b : BootInfo) : Prop where
  aligned : ∀ r ∈ b.rammapEntries, r.type = .usable → r.base % PAGE_SIZE = 0
  separate : ∀ r ∈ b.rammapEntries, r.type = .usable → ∀ q ∈ b.rammapEntries,
    q.type ≠ .usable → Separate r q
  kernel : ∀ m ∈ b.kernelPages, ∃ q ∈ b.rammapEntries, q.type ≠ .usable
    ∧ q.base ≤ m.1 ∧ m.1 < q.base + q.length

/-- A frame of a Usable region starts in no other region. -/
theorem MemoryMapOk.elsewhere (h : MemoryMapOk b) {r q : MemoryRegionInfo} {f : Nat}
    (hr : r ∈ b.rammapEntries) (hholds : r.Holds f) (hq : q ∈ b.rammapEntries)
    (htype : q.type ≠ .usable) :
    ¬ (q.base ≤ f * PAGE_SIZE ∧ f * PAGE_SIZE < q.base + q.length) := by
  obtain ⟨husable, hlo, hhi⟩ := hholds
  have hal := h.aligned r hr husable
  have hsep := h.separate r hr husable q hq htype
  unfold Separate firstFrame endFrame PAGE_SIZE at *
  omega

/-- A page that boot maps is in memory that is not free. -/
theorem AtLoad.taken {cursor f : Nat} (hm : AtLoad b kSect page m)
    (hkernel : kernelRegion b = some kSect) (hmap : MemoryMapOk b) (htaken : Taken b c cursor)
    (hf : f < 8 * c.frameAllocator.bits.bitmap.length)
    (hclear : bitAt c.frameAllocator.bits.bitmap f = false) : m.frame.addr ≠ f * PAGE_SIZE := by
  obtain ⟨hout, r, hr, hholds⟩ := htaken.free f hf hclear
  intro heq
  have helsewhere : ∀ q ∈ b.rammapEntries, q.type ≠ .usable →
      ¬ (q.base ≤ m.frame.addr ∧ m.frame.addr < q.base + q.length) := by
    rw [heq]
    exact fun q hq htype => hmap.elsewhere hr hholds hq htype
  rcases hm with hheap | ⟨-, flags, hmem, -⟩
  · obtain ⟨-, m', hm', -, haddr⟩ := mem_flagged.mp hheap
    obtain ⟨i, hi, rfl⟩ := mem_pagesFrom.mp hm'
    have hcursor := htaken.heap
    have hbase := htaken.base
    have hend : b.heapEnd = b.allocatorBase + 4 * 1024 * 1024 := rfl
    dsimp only at haddr
    unfold heapPages KERNEL_HEAP_SIZE PAGE_SIZE at *
    omega
  · rcases List.mem_append.mp hmem with hkern | hmisc
    · obtain ⟨-, m', hm', -, haddr⟩ := mem_kernelPart hkern
      obtain ⟨q, hq, htype, hlo, hhi⟩ := hmap.kernel m' (BootInfo.kernelPages_eq hkernel ▸ hm')
      dsimp only at haddr
      exact helsewhere q hq htype (haddr ▸ ⟨hlo, hhi⟩)
    · obtain ⟨-, m', hm', -, haddr⟩ := mem_flagged.mp hmisc
      obtain ⟨q, hq, hsome, i, hi, rfl⟩ := mem_miscPages.mp hm'
      refine helsewhere q hq (not_usable_of_misc hsome) ?_
      dsimp only at haddr
      rw [← haddr]
      unfold sizeInPages PAGE_SIZE at *
      split at hi <;> omega

/-- No address outside the recursive slot leads to a free frame. -/
theorem Space.elsewhere {cursor f : Nat} (h : Space b kSect root c) (hmap : MemoryMapOk b)
    (htaken : Taken b c cursor) (hf : f < 8 * c.frameAllocator.bits.bitmap.length)
    (hclear : bitAt c.frameAllocator.bits.bitmap f = false) (hv : pageIndex 4 v ≠ RECURSIVE)
    {t : Translation} (ht : hardwareWalk c.mem root v = some t) : t.phys / PAGE_SIZE ≠ f := by
  obtain ⟨m, hm, rfl⟩ := (h.hardware hv t).mp ht
  have hne := hm.taken h.kernel hmap htaken hf hclear
  have hal := m.aligned
  show (m.frame.addr + v.addr % PAGE_SIZE) / PAGE_SIZE ≠ f
  unfold PAGE_SIZE at *
  omega

/-- **FREE AND NOT IN USE.**  Under Limine's promises about the memory map, a frame that the
    frame allocator counts as free at `load` is Usable memory; it holds no table
    and no part of a bitmap, and no address outside the recursive slot leads
    to it. -/
theorem free_frames_unused (b : BootInfo) (mem : PhysMem) (c : KernelPagingController)
    (heapVirt : VirtAddr) (hstack : b.StackOutside) (hmap : MemoryMapOk b)
    (h : prepareMemory b mem = .ok (.ok (c, heapVirt))) :
    ∃ root pt', c.recPageTable.load = .ok (pt', root)
      ∧ ∀ f < 8 * c.frameAllocator.bits.bitmap.length,
        bitAt c.frameAllocator.bits.bitmap f = false →
        (∃ r ∈ b.rammapEntries, r.Holds f)
        ∧ f * PAGE_SIZE ∉ c.tableFrames
        ∧ (∀ j < c.frameAllocator.bits.bitmap.length,
          (c.frameAllocator.bits.ptr.addr - c.recPageTable.internalOffset + j) / PAGE_SIZE ≠ f)
        ∧ (∀ j < c.virtMemAllocator.bits.bitmap.length,
          (c.virtMemAllocator.bits.ptr.addr - c.recPageTable.internalOffset + j) / PAGE_SIZE ≠ f)
        ∧ ∀ v, pageIndex 4 v ≠ RECURSIVE → ∀ t, hardwareWalk c.mem root v = some t →
          t.phys / PAGE_SIZE ≠ f := by
  obtain ⟨⟨kSect, root, hspace⟩, -⟩ := prepareMemory_space hstack h
  obtain ⟨cursor, htaken⟩ := prepareMemory_taken hstack h
  refine ⟨root, _, load_eq hspace.wf, fun f hf hclear => ?_⟩
  obtain ⟨hout, hholds⟩ := htaken.free f hf hclear
  -- what lies between the heap and the cursor is in a frame that is not free
  have hbetween : ∀ a, b.heapEnd ≤ a ∧ a < cursor → a / PAGE_SIZE ≠ f := by
    intro a ha
    have hend := htaken.end_
    have hbase : b.heapEnd = b.allocatorBase + 4 * 1024 * 1024 := rfl
    unfold PAGE_SIZE at *
    omega
  refine ⟨hholds, fun hn => ?_, fun j hj => hbetween _ (htaken.frames j hj),
    fun j hj => hbetween _ (htaken.pages j hj), fun v hv t ht => ?_⟩
  · exact hbetween _ (htaken.tables _ hn) (Nat.mul_div_cancel _ (by decide))
  · exact hspace.elsewhere hmap htaken hf hclear hv ht

theorem sampleBoot_mapOk : MemoryMapOk sampleBoot where
  aligned := by decide
  separate := by
    unfold Separate
    decide
  kernel := by
    intro m hm
    rw [sampleBoot_kernelPages] at hm
    obtain ⟨i, hi, rfl⟩ := mem_pagesFrom.mp hm
    refine ⟨sampleKernel, by decide, by decide, ?_⟩
    show 0x800000 ≤ 0x800000 + i * PAGE_SIZE ∧ 0x800000 + i * PAGE_SIZE < 0x800000 + 0x4000
    unfold PAGE_SIZE
    omega

theorem free_frames_unused_sample :
    ∃ c heapVirt, prepareMemory sampleBoot sampleState.mem = .ok (.ok (c, heapVirt))
      ∧ ∀ f < 8 * c.frameAllocator.bits.bitmap.length,
        bitAt c.frameAllocator.bits.bitmap f = false → f * PAGE_SIZE ∉ c.tableFrames := by
  obtain ⟨c, heapVirt, h⟩ := prepareMemory_total sampleBoot_bootable sampleState.mem
  obtain ⟨root, pt', -, hfree⟩ := free_frames_unused sampleBoot sampleState.mem c heapVirt
    sampleBoot_stackOutside sampleBoot_mapOk h
  exact ⟨c, heapVirt, h, fun f hf hclear => (hfree f hf hclear).2.1⟩

end Space

end KermolBootMap
