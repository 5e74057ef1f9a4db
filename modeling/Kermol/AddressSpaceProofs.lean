import Kermol.PreparedMemoryProofs
import Kermol.RecursiveSlotProofs

/-! # The new address space

    After the switch the kernel reaches its tables and bitmaps through the
    direct map, at `p + internal_offset`.  The new page table has only some
    regions of the memory map there, and the frames behind the heap are Usable
    memory, which is not among them. -/

namespace KermolAddressSpace

open RustEffect X86Paging KermolFrameAllocator KermolPageTable KermolBitmap
open KermolPageTree KermolFrameBitmap KermolController KermolBootTables
open KermolInitMemory KermolPrepared KermolPageTableRun KermolRecursiveSlot RadixTree

/-! ## What the kernel dereferences after the switch -/

/-- The byte at physical address `p` is found through the direct map. -/
def SelfMapped (c : KernelPagingController) (p : Nat) : Prop :=
  ∃ (v : VirtAddr) (q : PhysAddr), v.addr = p + c.recPageTable.internalOffset
    ∧ c.translate v = .ok (some q) ∧ q.addr = p

/-- Every byte of a slice is found through the direct map. -/
def SliceMapped (c : KernelPagingController) (a : BitmapAllocator) : Prop :=
  ∀ j < a.bitmap.length, SelfMapped c (a.ptr.addr - c.recPageTable.internalOffset + j)

/-- The new address space contains the tables and the bitmaps. -/
structure SelfContained (c : KernelPagingController) : Prop where
  tables : ∀ n ∈ c.tableFrames, ∀ j < PAGE_SIZE, SelfMapped c (n + j)
  frameBits : SliceMapped c c.frameAllocator.bits
  pageBits : SliceMapped c c.virtMemAllocator.bits

/-- The frame at `p` is in the direct map of the new page table: it lies in a
    region that `map_misc` maps (or the kernel runs there), and it is not taken
    out again as the guard page. -/
def DirectMapped (b : BootInfo) (p : Nat) : Prop :=
  (p + b.hhdm.offset.addr) / PAGE_SIZE ≠ b.stackTop / PAGE_SIZE
    ∧ ((∃ r ∈ b.rammapEntries, (miscFlags r.type).isSome ∧ r.base ≤ p
        ∧ p < r.base + sizeInPages r.length * PAGE_SIZE)
      ∨ OnList b.kernelPages ((p + b.hhdm.offset.addr) / PAGE_SIZE) p)

/-- The direct map of what boot takes does not meet the recursive slot. -/
def DirectOutside (b : BootInfo) : Prop :=
  ∀ v : VirtAddr, b.heapEnd + b.hhdm.offset.addr ≤ v.addr →
    v.addr < b.heapEnd + b.hhdm.offset.addr + b.bootFrames * PAGE_SIZE →
    pageIndex 4 v ≠ RECURSIVE

/-- A page of a bitmap holds at least one of its bytes. -/
theorem lt_of_lt_sizeInPages {size i : Nat} (h : i < sizeInPages size) :
    i * PAGE_SIZE < size := by
  rw [sizeInPages] at h
  unfold PAGE_SIZE at *
  split at h
  · omega
  · omega

/-- The last page of a slice is begun. -/
theorem sizeInPages_mul_lt (size : Nat) : sizeInPages size * PAGE_SIZE < size + PAGE_SIZE := by
  rw [sizeInPages]
  unfold PAGE_SIZE
  split
  · omega
  · omega

section Switch

variable {b : BootInfo} {root : PhysAddr} {s : PagingState LinearFrameAllocator}
  {bitmaps : Nat} {c : KernelPagingController}

/-- A region that `map_misc` mapped starts on a page. -/
theorem base_aligned (hp : Prepared b root s bitmaps c) {r : MemoryRegionInfo}
    (hr : r ∈ b.rammapEntries) (hsome : (miscFlags r.type).isSome)
    (hpos : 0 < sizeInPages r.length * PAGE_SIZE) : r.base % PAGE_SIZE = 0 := by
  have hfirst : (r.base + 0 * PAGE_SIZE, r.base + b.hhdm.offset.addr + 0 * PAGE_SIZE)
      ∈ b.earlyPages :=
    List.mem_append_right _
      (mem_miscPages.mpr ⟨r, hr, hsome, 0, Nat.pos_of_mul_pos_right hpos, rfl⟩)
  simpa using hp.aligned _ hfirst

/-- The early mappings at a frame behind the heap. -/
theorem directMapped_iff (hp : Prepared b root s bitmaps c) {n : Nat}
    (hal : n % PAGE_SIZE = 0) :
    DirectMapped b n ↔ b.EarlyOn ((n + b.hhdm.offset.addr) / PAGE_SIZE) n := by
  have hoff := b.hhdm.aligned
  rw [DirectMapped, BootInfo.EarlyOn, BootInfo.earlyPages, onList_append]
  refine and_congr_right fun _ => ?_
  rw [or_comm]
  refine or_congr Iff.rfl ?_
  constructor
  · rintro ⟨r, hr, hsome, hlo, hhi⟩
    have hbase := base_aligned hp hr hsome (by omega)
    refine ⟨_, mem_miscPages.mpr ⟨r, hr, hsome, (n - r.base) / PAGE_SIZE, ?_, rfl⟩, ?_, ?_⟩
    · simp only [PAGE_SIZE] at *
      omega
    · dsimp only
      simp only [PAGE_SIZE] at *
      omega
    · dsimp only
      simp only [PAGE_SIZE] at *
      omega
  · rintro ⟨m, hm, -, hphys⟩
    obtain ⟨r, hr, hsome, i, hi, rfl⟩ := mem_miscPages.mp hm
    dsimp only at hphys
    refine ⟨r, hr, hsome, ?_, ?_⟩
    · omega
    · simp only [PAGE_SIZE] at *
      omega

/-- The heap has no frame behind its end. -/
theorem heap_before {w n : Nat} (hle : b.heapEnd ≤ n) : ¬ OnList b.heapMappings w n := by
  rintro ⟨m, hm, -, rfl⟩
  obtain ⟨i, hi, rfl⟩ := mem_pagesFrom.mp hm
  dsimp only at hle
  rw [BootInfo.heapEnd, KERNEL_HEAP_SIZE] at hle
  rw [heapPages, KERNEL_HEAP_SIZE] at hi
  simp only [PAGE_SIZE] at *
  omega

/-- A mapped page has a canonical address outside the recursive slot. -/
theorem earlyOn_outside (hp : Prepared b root s bitmaps c) {w f : Nat}
    (h : b.EarlyOn w f) :
    ∃ v : VirtAddr, v.page = w ∧ pageIndex 4 v ≠ RECURSIVE := by
  obtain ⟨-, m, hm, hw, -⟩ := h
  obtain ⟨v, hv, hout⟩ := hp.boot.outside m.2
    (List.mem_map_of_mem (List.mem_append_left _ hm))
  exact ⟨v, by rw [VirtAddr.page, hv]; exact hw, hout⟩

/-- **ONE FRAME.**  If the direct map has the page of a frame, every byte of
    the frame is found through it. -/
theorem selfMapped_of_directMapped (hp : Prepared b root s bitmaps c) {n j : Nat}
    (hn : n ∈ framesFrom b.heapEnd s.alloc.cursor.addr) (hj : j < PAGE_SIZE)
    (h : DirectMapped b n) : SelfMapped c (n + j) := by
  obtain ⟨-, hhi, hal⟩ := hn
  have hoff := b.hhdm.aligned
  have hcursor := s.alloc.cursor.valid
  have hcal := hp.boot.cursor
  rw [directMapped_iff hp hal] at h
  simp only [SelfMapped, KernelPagingController.translate, hp.offset, hp.mem]
  -- the page that was mapped stands for every byte of it
  obtain ⟨w, hw, hwout⟩ := earlyOn_outside hp h
  have hcan : IsCanonical (n + j + b.hhdm.offset.addr) := by
    have hwcan := w.canonical
    unfold IsCanonical VirtAddr.page PAGE_SIZE at *
    omega
  have hvalid : n + j < 2 ^ 52 := by
    simp only [PAGE_SIZE] at *
    omega
  have hpage : (⟨_, hcan⟩ : VirtAddr).page = w.page := by
    rw [hw]
    show (n + j + b.hhdm.offset.addr) / 4096 = _
    simp only [PAGE_SIZE] at *
    omega
  have hvout : pageIndex 4 (⟨_, hcan⟩ : VirtAddr) ≠ RECURSIVE := by
    rw [pageIndex_eq_of_page_eq hpage (by omega) (by omega)]
    exact hwout
  refine ⟨⟨_, hcan⟩, ⟨n + j, hvalid⟩, rfl, ?_, rfl⟩
  refine (hp.boot.translate_iff hvout _).mpr ⟨n, Or.inl ?_, ?_⟩
  · rw [hpage, hw]
    exact h
  · show n + j = n + (n + j + b.hhdm.offset.addr) % PAGE_SIZE
    simp only [PAGE_SIZE] at *
    omega

/-- Outside the recursive slot, a frame is found only if its page was mapped. -/
theorem directMapped_of_selfMapped (hp : Prepared b root s bitmaps c) (hout : DirectOutside b)
    {n : Nat} (hn : n ∈ framesFrom b.heapEnd s.alloc.cursor.addr) (h : SelfMapped c n) :
    DirectMapped b n := by
  obtain ⟨hlo, hhi, hal⟩ := hn
  have hoff := b.hhdm.aligned
  rw [hp.cursor_eq] at hhi
  rw [directMapped_iff hp hal]
  simp only [SelfMapped, KernelPagingController.translate, hp.offset, hp.mem] at h
  obtain ⟨v, q, hv, htrans, hq⟩ := h
  have hvout : pageIndex 4 v ≠ RECURSIVE := hout v (by omega) (by omega)
  obtain ⟨f, hon, hf⟩ := (hp.boot.translate_iff hvout q).mp htrans
  have hpage : v.page = (n + b.hhdm.offset.addr) / PAGE_SIZE := by
    rw [← hv]
    rfl
  have hfn : f = n := by
    rw [hq, hv] at hf
    simp only [PAGE_SIZE] at *
    omega
  rw [hpage, hfn] at hon
  exact hon.resolve_right (heap_before hlo)

theorem sliceMapped_at {a : BitmapAllocator} {start size : Nat}
    (hslice : SliceAt c.recPageTable a start size) :
    SliceMapped c a ↔ ∀ j < size, SelfMapped c (start + j) := by
  rw [SliceMapped, hslice.ptr, Nat.add_sub_cancel, hslice.length]

/-- A slice is found if the frames that it lies in are mapped. -/
theorem sliceMapped_of_frames (hp : Prepared b root s bitmaps c)
    {a : BitmapAllocator} {start size : Nat} (hslice : SliceAt c.recPageTable a start size)
    (hframes : framesFrom start (start + sizeInPages size * PAGE_SIZE)
      ⊆ framesFrom b.heapEnd s.alloc.cursor.addr) (hal : start % PAGE_SIZE = 0)
    (h : ∀ n ∈ framesFrom b.heapEnd s.alloc.cursor.addr, DirectMapped b n) :
    SliceMapped c a := by
  have hpos : 0 < PAGE_SIZE := by decide
  rw [sliceMapped_at hslice]
  intro j hj
  have hi : j / PAGE_SIZE < sizeInPages size := by
    rw [Nat.div_lt_iff_lt_mul hpos]
    exact hj.trans_le (le_sizeInPages size)
  have hframe := hframes ((mem_framesFrom_iff hal).mpr ⟨_, hi, rfl⟩)
  have hbyte : start + j = start + j / PAGE_SIZE * PAGE_SIZE + j % PAGE_SIZE := by
    rw [Nat.add_assoc, Nat.div_add_mod']
  rw [hbyte]
  exact selfMapped_of_directMapped hp hframe (Nat.mod_lt _ hpos) (h _ hframe)

/-- The first byte of every page of a slice. -/
theorem selfMapped_of_slice {a : BitmapAllocator} {start size n : Nat}
    (hslice : SliceAt c.recPageTable a start size) (hal : start % PAGE_SIZE = 0)
    (h : SliceMapped c a) (hn : n ∈ framesFrom start (start + sizeInPages size * PAGE_SIZE)) :
    SelfMapped c n := by
  obtain ⟨i, hi, rfl⟩ := (mem_framesFrom_iff hal).mp hn
  exact (sliceMapped_at hslice).mp h _ (lt_of_lt_sizeInPages hi)

/-- The frames behind the heap: tables, and the two bitmaps in their gap. -/
theorem framesFrom_heapEnd (hp : Prepared b root s bitmaps c) :
    framesFrom b.heapEnd s.alloc.cursor.addr
      = tables root s.mem ∪ (framesFrom bitmaps (bitmaps + sizeInPages b.sizeBytes * PAGE_SIZE)
        ∪ framesFrom (bitmaps + sizeInPages b.sizeBytes * PAGE_SIZE)
          (bitmaps + sizeInPages b.sizeBytes * PAGE_SIZE
            + sizeInPages (b.sizeBytes * 2) * PAGE_SIZE)) := by
  have hbefore := hp.before
  have hbehind := hp.behind
  rw [BootInfo.bitmapPages, Nat.add_mul] at hbehind
  rw [hp.tables_eq, BootInfo.bitmapPages, Nat.add_mul]
  ext n
  simp only [Set.mem_union, mem_framesFrom]
  omega

theorem pageBits_aligned (hp : Prepared b root s bitmaps c) :
    (bitmaps + sizeInPages b.sizeBytes * PAGE_SIZE) % PAGE_SIZE = 0 := by
  rw [Nat.add_mul_mod_self_right]
  exact hp.bitmapsAligned

/-- A self-contained address space has the first byte of every frame behind
    the heap. -/
theorem selfMapped_of_selfContained (hp : Prepared b root s bitmaps c) (h : SelfContained c)
    {n : Nat} (hn : n ∈ framesFrom b.heapEnd s.alloc.cursor.addr) : SelfMapped c n := by
  rw [framesFrom_heapEnd hp] at hn
  rcases hn with htable | hbit | hbit
  · rw [← hp.tableFrames_eq] at htable
    exact h.tables n htable 0 (by decide)
  · exact selfMapped_of_slice hp.frames hp.bitmapsAligned h.frameBits hbit
  · exact selfMapped_of_slice hp.pages (pageBits_aligned hp) h.pageBits hbit

/-! ### The recursive slot -/

/-- The kernel is mapped where the linker script puts it. -/
theorem kernelPages_high {m : Nat × Nat} (hm : m ∈ b.kernelPages) :
    0xFFFFFF8000000000 ≤ m.2 := by
  have hhigh := b.image.high
  have htext := b.image.text
  have hrodata := b.image.rodata
  have hdata := b.image.data
  have helf := b.image.elf
  have hsection : ∀ {lo hi : Nat}, m ∈ b.sectionPages lo hi → lo ≤ m.2 := by
    intro lo hi hm
    obtain ⟨page, hpage, rfl⟩ := List.mem_map.mp hm
    obtain ⟨i, -, rfl⟩ := List.mem_map.mp hpage
    exact Nat.le_add_right _ _
  rw [BootInfo.kernelPages] at hm
  cases hkernel : kernelRegion b with
  | none =>
      rw [hkernel] at hm
      cases hm
  | some region =>
      rw [hkernel] at hm
      replace hm : m ∈ b.kernelPagesIn region := hm
      simp only [BootInfo.kernelPagesIn, List.mem_append] at hm
      rcases hm with hm | hm | hm | hm | hm
      · exact hhigh.trans (hsection hm)
      · exact (hhigh.trans htext).trans (hsection hm)
      · exact ((hhigh.trans htext).trans hrodata).trans (hsection hm)
      · exact (((hhigh.trans htext).trans hrodata).trans hdata).trans (hsection hm)
      · obtain ⟨i, -, rfl⟩ := mem_pagesFrom.mp hm
        dsimp only
        omega

/-- With the direct map in the upper half, nothing is mapped in the lower. -/
theorem touched_high (hoff : 0xFFFF800000000000 ≤ b.hhdm.offset.addr) {a : Nat}
    (ha : a ∈ (b.earlyPages ++ b.heapMappings).map Prod.snd) : 0xFFFF800000000000 ≤ a := by
  obtain ⟨m, hm, rfl⟩ := List.mem_map.mp ha
  simp only [BootInfo.earlyPages, List.mem_append] at hm
  rcases hm with (hm | hm) | hm
  · exact le_trans (by decide) (kernelPages_high hm)
  · obtain ⟨r, -, -, i, -, rfl⟩ := mem_miscPages.mp hm
    dsimp only
    omega
  · obtain ⟨i, -, rfl⟩ := mem_pagesFrom.mp hm
    dsimp only
    omega

/-- Nothing is found at the start of the recursive slot. -/
theorem translate_slot_start (hp : Prepared b root s bitmaps c)
    (hoff : 0xFFFF800000000000 ≤ b.hhdm.offset.addr) {v : VirtAddr}
    (hv : v.addr = 0xFFFFFF0000000000) : c.translate v = .ok none := by
  have h4 : pageIndex 4 v = RECURSIVE := by
    apply Fin.ext
    show v.addr / 2 ^ 39 % 512 = 510
    omega
  have h3 : pageIndex 3 v = 0 := by
    apply Fin.ext
    show v.addr / 2 ^ 30 % 512 = 0
    omega
  rw [KernelPagingController.translate, hp.mem]
  refine translate_slot_none hp.boot.wf h4 ?_
  rw [h3]
  by_contra hused
  obtain ⟨n, hn⟩ := Option.ne_none_iff_exists'.mp hused
  have hpresent : Present root s.mem [0] := ⟨n, by rw [walk_cons, hn]; rfl⟩
  -- a table in entry 0 would be there for a page of the lowest 512 GiB
  rcases (hp.boot.paths [0] ⟨by decide, by decide⟩).mp hpresent with hnil | ⟨w, hw, hprefix⟩
  · cases hnil
  · have hhigh := touched_high hoff hw
    have hcan := w.canonical
    have hzero : w.addr / 2 ^ 39 % 512 = 0 :=
      congrArg Fin.val (List.cons_prefix_cons.mp hprefix).1.symm
    unfold IsCanonical at hcan
    omega

/-- The end of the heap was mapped, so the direct map of the frames behind it
    can only run into the recursive slot from below. -/
theorem slot_above_heap (hp : Prepared b root s bitmaps c) {v : VirtAddr}
    (hlo : b.heapEnd + b.hhdm.offset.addr ≤ v.addr) (hrec : pageIndex 4 v = RECURSIVE) :
    b.heapEnd + b.hhdm.offset.addr ≤ 0xFFFFFF0000000000 ∧ 0xFFFFFF0000000000 ≤ v.addr := by
  have hslot : v.addr / 2 ^ 39 % 512 = 510 := congrArg Fin.val hrec
  have hcan := v.canonical
  have hoff := b.hhdm.aligned
  have hstart := hp.start
  have hend : b.heapEnd = b.allocatorBase + 1024 * PAGE_SIZE := rfl
  have hlast : (b.allocatorBase + 1023 * PAGE_SIZE,
      b.allocatorBase + b.hhdm.offset.addr + 1023 * PAGE_SIZE) ∈ b.heapMappings :=
    mem_pagesFrom.mpr ⟨1023, by decide, rfl⟩
  obtain ⟨w, hw, hwout⟩ := hp.boot.outside _
    (List.mem_map_of_mem (List.mem_append_right b.earlyPages hlast))
  have hwslot : w.addr / 2 ^ 39 % 512 ≠ 510 := fun heq => hwout (Fin.ext heq)
  unfold IsCanonical at hcan
  simp only [PAGE_SIZE] at *
  omega

/-- A self-contained address space keeps its direct map out of the slot. -/
theorem directOutside_of_selfContained (hp : Prepared b root s bitmaps c)
    (h : SelfContained c) : DirectOutside b := by
  intro v hlo hhi hrec
  obtain ⟨hbelow, habove⟩ := slot_above_heap hp hlo hrec
  have hoff := b.hhdm.aligned
  have hcan := b.hhdm.offset.canonical
  have hcursor := s.alloc.cursor.valid
  rw [hp.cursor_eq] at hcursor
  have hframe : 0xFFFFFF0000000000 - b.hhdm.offset.addr
      ∈ framesFrom b.heapEnd s.alloc.cursor.addr := by
    rw [hp.cursor_eq]
    refine ⟨by omega, by omega, ?_⟩
    simp only [PAGE_SIZE] at *
    omega
  obtain ⟨w, q, hw, htrans, -⟩ := selfMapped_of_selfContained hp h hframe
  rw [hp.offset, Nat.sub_add_cancel (by omega)] at hw
  have hhigh : 0xFFFF800000000000 ≤ b.hhdm.offset.addr := by
    unfold IsCanonical at hcan
    omega
  rw [translate_slot_start hp hhigh hw] at htrans
  cases htrans

/-! ### The whole address space -/

/-- **THE WHOLE ADDRESS SPACE.** -/
theorem selfContained_iff_frames (hp : Prepared b root s bitmaps c) :
    SelfContained c ↔ ∀ n ∈ framesFrom b.heapEnd s.alloc.cursor.addr, DirectMapped b n := by
  constructor
  · intro h n hn
    exact directMapped_of_selfMapped hp (directOutside_of_selfContained hp h) hn
      (selfMapped_of_selfContained hp h hn)
  · intro h
    have hsplit := framesFrom_heapEnd hp
    refine ⟨?_, sliceMapped_of_frames hp hp.frames ?_ hp.bitmapsAligned h,
      sliceMapped_of_frames hp hp.pages ?_ (pageBits_aligned hp) h⟩
    · intro n hn j hj
      rw [hp.tableFrames_eq] at hn
      have hframe : n ∈ framesFrom b.heapEnd s.alloc.cursor.addr := hsplit ▸ Or.inl hn
      exact selfMapped_of_directMapped hp hframe hj (h n hframe)
    · exact fun n hn => hsplit ▸ Or.inr (Or.inl hn)
    · exact fun n hn => hsplit ▸ Or.inr (Or.inr hn)

/-- **USABLE MEMORY IS NOT IN THE DIRECT MAP.**  A page of a Usable region is
    mapped there only if the kernel runs in it. -/
theorem not_directMapped_of_usable (hp : Prepared b root s bitmaps c)
    {u : MemoryRegionInfo} (hubase : u.base % PAGE_SIZE = 0)
    (hsep : ∀ r ∈ b.rammapEntries, (miscFlags r.type).isSome →
      r.base + r.length ≤ u.base ∨ u.base + u.length ≤ r.base)
    (hkernel : ∀ m ∈ b.kernelPages, m.1 < u.base ∨ u.base + u.length ≤ m.1) {n : Nat}
    (hlo : u.base ≤ n) (hhi : n < u.base + u.length) : ¬ DirectMapped b n := by
  rintro ⟨-, ⟨r, hr, hsome, hrlo, hrhi⟩ | ⟨m, hm, -, rfl⟩⟩
  · have hrbase := base_aligned hp hr hsome (by omega)
    have hpages := sizeInPages_mul_lt r.length
    rcases hsep r hr hsome with hbelow | habove
    -- the last page of the region may be begun only, but it ends on a page
    · simp only [PAGE_SIZE] at *
      omega
    · omega
  · rcases hkernel m hm with hbelow | habove
    · omega
    · omega

/-- A heap that does not fill its region leaves the level-4 table unmapped. -/
theorem not_selfContained (hp : Prepared b root s bitmaps c)
    {u : MemoryRegionInfo} (hregion : allocatorRegion b = some u)
    (hsep : ∀ r ∈ b.rammapEntries, (miscFlags r.type).isSome →
      r.base + r.length ≤ u.base ∨ u.base + u.length ≤ r.base)
    (hkernel : ∀ m ∈ b.kernelPages, m.1 < u.base ∨ u.base + u.length ≤ m.1)
    (hlarge : KERNEL_HEAP_SIZE < u.length) : ¬ SelfContained c := by
  have hstart := hp.start
  have hend : b.heapEnd = u.base + KERNEL_HEAP_SIZE := by
    rw [BootInfo.heapEnd, BootInfo.allocatorBase_eq hregion]
  have hubase : u.base % PAGE_SIZE = 0 := by
    rw [hend, show KERNEL_HEAP_SIZE = heapPages * PAGE_SIZE from rfl,
      Nat.add_mul_mod_self_right] at hstart
    exact hstart
  rw [selfContained_iff_frames hp]
  intro hall
  refine not_directMapped_of_usable hp hubase hsep hkernel ?_ ?_ (hall b.heapEnd ?_)
  · omega
  · omega
  · rw [hp.cursor_eq, mem_framesFrom_iff hp.start]
    exact ⟨0, by rw [BootInfo.bootFrames]; omega, by simp⟩

/-- **WHEN THE NEW ADDRESS SPACE CONTAINS ITS TABLES AND BITMAPS.**  Exactly if
    every frame that boot takes behind the heap lies in a region that is mapped
    into the direct map. -/
theorem selfContained_iff (b : BootInfo) (mem : PhysMem) (c : KernelPagingController)
    (heapVirt : VirtAddr) (hstack : b.StackOutside)
    (h : prepareMemory b mem = .ok (.ok (c, heapVirt))) :
    SelfContained c ↔ ∀ k < b.bootFrames, DirectMapped b (b.heapEnd + k * PAGE_SIZE) := by
  obtain ⟨root, s, bitmaps, hp⟩ := prepareMemory_cases hstack h
  rw [selfContained_iff_frames hp, hp.cursor_eq]
  constructor
  · intro hall k hk
    exact hall _ ((mem_framesFrom_iff hp.start).mpr ⟨k, hk, rfl⟩)
  · intro hall n hn
    obtain ⟨k, hk, rfl⟩ := (mem_framesFrom_iff hp.start).mp hn
    exact hall k hk

end Switch

/-! ## A boot -/

section Sample

/-- A page in the upper half, outside the recursive slot. -/
theorem mappable_of_upper {m : Nat × Nat} (hphys : m.1 < 2 ^ 52)
    (hal : m.1 % PAGE_SIZE = 0) (hlo : 0xFFFF800000000000 ≤ m.2) (hhi : m.2 < 2 ^ 64)
    (hslot : m.2 / 2 ^ 39 % 512 ≠ 510) : Mappable m := by
  refine ⟨hphys, hal, ⟨m.2, Or.inr ⟨hlo, hhi⟩⟩, rfl, fun hrec => hslot ?_⟩
  exact congrArg Fin.val hrec

theorem pagesFrom_pages (phys virt n : Nat) :
    (pagesFrom phys virt n).map (fun m => m.2 / PAGE_SIZE)
      = List.range' (virt / PAGE_SIZE) n := by
  rw [pagesFrom, List.map_map, List.range'_eq_map_range]
  refine List.map_congr_left fun i _ => ?_
  dsimp only [Function.comp_apply]
  rw [Nat.add_mul_div_right _ _ (by decide)]

/-- The memory of the boot: the loader's, the kernel's, 64 MiB that are Usable, and
    a framebuffer of 640 by 480 pixels. -/
def sampleUsable : MemoryRegionInfo := ⟨0x1000000, 0x4000000, .usable, by decide⟩

def sampleKernel : MemoryRegionInfo := sampleKernelRegion

def sampleLoader : MemoryRegionInfo :=
  ⟨0x100000, 0x100000, .bootloaderReclaimable, by decide⟩

def sampleFramebufferRegion : MemoryRegionInfo := ⟨0xFD000000, 0x12C000, .framebuffer, by decide⟩

/-- A boot with a kernel of four pages and the stack in the loader's memory. -/
def sampleBoot : BootInfo where
  rammapEntries := [sampleLoader, sampleKernel, sampleUsable, sampleFramebufferRegion]
  hhdm := sampleHhdm
  kernelAddr := ⟨0xFFFFFFFF80000000, 0x800000⟩
  image := sampleImage
  entryStackPointer := 0xFFFF80000017FFF0

theorem sampleBoot_kernelPages :
    sampleBoot.kernelPages = pagesFrom 0x800000 0xFFFFFFFF80000000 4 := by
  decide +kernel

theorem sampleBoot_miscPages :
    sampleBoot.miscPages = pagesFrom 0x100000 0xFFFF800000100000 256
      ++ pagesFrom 0xFD000000 0xFFFF8000FD000000 300 := by
  show [sampleLoader, sampleKernel, sampleUsable, sampleFramebufferRegion].flatMap
    sampleBoot.regionPages = _
  rw [List.flatMap_cons, List.flatMap_cons, List.flatMap_cons, List.flatMap_cons,
    List.flatMap_nil, List.append_nil]
  rfl

theorem sampleBoot_earlyPages : sampleBoot.earlyPages
    = pagesFrom 0x800000 0xFFFFFFFF80000000 4
      ++ (pagesFrom 0x100000 0xFFFF800000100000 256
        ++ pagesFrom 0xFD000000 0xFFFF8000FD000000 300) := by
  rw [BootInfo.earlyPages, sampleBoot_kernelPages, sampleBoot_miscPages]

theorem sampleBoot_heapMappings : sampleBoot.heapMappings
    = pagesFrom 0x1000000 0xFFFF800001000000 1024 :=
  rfl

theorem sampleBoot_bootLimit : bootLimit sampleBoot = 0x1400000 + 4756 * PAGE_SIZE := by
  rw [bootLimit, sampleBoot_earlyPages]
  simp only [List.length_append, pagesFrom_length]
  rfl

/-- The stack is in the loader's memory. -/
theorem sampleBoot_stackTop : sampleBoot.stackTop = 0xFFFF800000180000 := rfl

theorem sampleBoot_stack {a : Nat}
    (h : a ∈ stepBy (sampleBoot.stackTop - STACK_SIZE) sampleBoot.stackTop) :
    ∃ i < 16, a = 0xFFFF800000170000 + i * PAGE_SIZE := by
  obtain ⟨i, hi, rfl⟩ := List.mem_map.mp h
  exact ⟨i, List.mem_range.mp hi, rfl⟩

theorem sampleBoot_stackOutside : sampleBoot.StackOutside := by
  intro v hv hrec
  have hslot : v.addr / 2 ^ 39 % 512 = 510 := congrArg Fin.val hrec
  rcases hv with htop | hstack
  · rw [htop, sampleBoot_stackTop] at hslot
    omega
  · obtain ⟨i, hi, haddr⟩ := sampleBoot_stack hstack
    rw [haddr, PAGE_SIZE] at hslot
    omega

/-- The loader's pages are early pages. -/
theorem sampleBoot_loader {i : Nat} (hi : i < 256) :
    OnList sampleBoot.earlyPages ((0xFFFF800000100000 + i * PAGE_SIZE) / PAGE_SIZE)
      (0x100000 + i * PAGE_SIZE) := by
  refine ⟨(0x100000 + i * PAGE_SIZE, 0xFFFF800000100000 + i * PAGE_SIZE), ?_, rfl, rfl⟩
  rw [sampleBoot_earlyPages]
  exact List.mem_append_right _ (List.mem_append_left _ (mem_pagesFrom.mpr ⟨i, hi, rfl⟩))

theorem sampleBoot_stackOk : StackOk sampleBoot where
  entry := by decide
  top := by decide
  size := by decide
  bottom := by decide
  guard := ⟨_, sampleBoot_loader (i := 0x80) (by decide)⟩
  stack := by
    intro a ha
    obtain ⟨i, hi, rfl⟩ := sampleBoot_stack ha
    refine ⟨Or.inr ?_, 0x100000 + (i + 0x70) * PAGE_SIZE, ?_, ?_⟩
    · rw [PAGE_SIZE]
      omega
    · rw [sampleBoot_stackTop, PAGE_SIZE]
      omega
    · have hpage := sampleBoot_loader (i := i + 0x70) (by omega)
      rwa [Nat.add_mul, show 0xFFFF800000100000 + (i * PAGE_SIZE + 0x70 * PAGE_SIZE)
        = 0xFFFF800000170000 + i * PAGE_SIZE by rw [PAGE_SIZE]; omega, ← Nat.add_mul] at hpage

theorem sampleBoot_mappable :
    ∀ m ∈ sampleBoot.earlyPages ++ sampleBoot.heapMappings, Mappable m := by
  intro m hm
  rw [sampleBoot_earlyPages, sampleBoot_heapMappings] at hm
  simp only [List.mem_append, mem_pagesFrom] at hm
  rcases hm with (⟨i, hi, rfl⟩ | ⟨i, hi, rfl⟩ | ⟨i, hi, rfl⟩) | ⟨i, hi, rfl⟩
  all_goals
    refine mappable_of_upper ?_ ?_ ?_ ?_ ?_
    all_goals
      dsimp only
      unfold PAGE_SIZE
      omega

theorem sampleBoot_distinct :
    ((sampleBoot.earlyPages ++ sampleBoot.heapMappings).map fun m => m.2 / PAGE_SIZE).Nodup := by
  rw [sampleBoot_earlyPages, sampleBoot_heapMappings, List.map_append, List.map_append,
    List.map_append, pagesFrom_pages, pagesFrom_pages, pagesFrom_pages, pagesFrom_pages]
  refine List.nodup_append.mpr ⟨List.nodup_append.mpr ⟨List.nodup_range',
    List.nodup_append.mpr ⟨List.nodup_range', List.nodup_range', ?_⟩, ?_⟩, List.nodup_range', ?_⟩
  all_goals
    intro a ha a' ha'
    simp only [List.mem_append, List.mem_range'_1] at ha ha'
    simp only [PAGE_SIZE] at *
    omega

/-- Two regions are mapped by `map_misc`. -/
theorem sampleBoot_misc {r : MemoryRegionInfo} (hr : r ∈ sampleBoot.rammapEntries)
    (hsome : (miscFlags r.type).isSome) : r = sampleLoader ∨ r = sampleFramebufferRegion := by
  simp only [sampleBoot, List.mem_cons, List.not_mem_nil, or_false] at hr
  rcases hr with rfl | rfl | rfl | rfl
  · exact Or.inl rfl
  · cases hsome
  · cases hsome
  · exact Or.inr rfl

theorem sampleBoot_bootable : Bootable sampleBoot sampleUsable sampleKernel where
  allocator := by decide
  kernel := by decide
  highest := by decide
  aligned := by decide
  image := by constructor <;> decide
  regions := by
    intro r hr hsome
    rcases sampleBoot_misc hr hsome with rfl | rfl
    · constructor <;> decide
    · constructor <;> decide
  mappable := sampleBoot_mappable
  distinct := sampleBoot_distinct
  outside := sampleBoot_stackOutside
  stack := sampleBoot_stackOk
  usable := by decide
  room := by
    rw [sampleBoot_bootLimit]
    constructor <;> decide
  capacity := by
    rw [sampleBoot_bootLimit]
    decide

/-- The regions of the sample are disjoint. -/
theorem sampleBoot_separate : ∀ r ∈ sampleBoot.rammapEntries, (miscFlags r.type).isSome →
    r.base + r.length ≤ sampleUsable.base
      ∨ sampleUsable.base + sampleUsable.length ≤ r.base := by
  decide

theorem sampleBoot_kernelOutside : ∀ m ∈ sampleBoot.kernelPages,
    m.1 < sampleUsable.base ∨ sampleUsable.base + sampleUsable.length ≤ m.1 := by
  rw [sampleBoot_kernelPages]
  decide

/-- The frame behind the heap is Usable, so the direct map does not have it. -/
theorem sampleBoot_notDirectMapped : ¬ DirectMapped sampleBoot sampleBoot.heapEnd := by
  rintro ⟨-, ⟨r, hr, hsome, hlo, hhi⟩ | ⟨m, hm, -, hframe⟩⟩
  · rcases sampleBoot_misc hr hsome with rfl | rfl
    · exact absurd hhi (by decide)
    · exact absurd hlo (by decide)
  · rw [sampleBoot_kernelPages] at hm
    obtain ⟨i, hi, rfl⟩ := mem_pagesFrom.mp hm
    have hend : sampleBoot.heapEnd = 0x1400000 := rfl
    rw [hend] at hframe
    unfold PAGE_SIZE at hframe
    dsimp only at hframe
    omega

/-- `init_memory` gets to `load` on the sample, and the level-4 table, which is the first
    frame behind the heap, is lost. -/
theorem selfContained_iff_sample :
    ¬ DirectMapped sampleBoot sampleBoot.heapEnd
      ∧ ∃ c heapVirt, prepareMemory sampleBoot sampleState.mem = .ok (.ok (c, heapVirt))
        ∧ ¬ SelfContained c := by
  obtain ⟨c, heapVirt, h⟩ := prepareMemory_total sampleBoot_bootable sampleState.mem
  refine ⟨sampleBoot_notDirectMapped, c, heapVirt, h, fun hself => sampleBoot_notDirectMapped ?_⟩
  have hfirst := (selfContained_iff sampleBoot sampleState.mem c heapVirt
    sampleBoot_stackOutside h).mp hself 0 (by rw [BootInfo.bootFrames]; omega)
  rwa [Nat.zero_mul] at hfirst

/-- **THE TABLES ARE LEFT BEHIND.**  `init_memory` gets to `load`, and the new
    page table does not map its own level-4 table. -/
theorem new_address_space_lacks_tables :
    ∃ c heapVirt, prepareMemory sampleBoot sampleState.mem = .ok (.ok (c, heapVirt))
      ∧ ¬ SelfContained c := by
  obtain ⟨c, heapVirt, h⟩ := prepareMemory_total sampleBoot_bootable sampleState.mem
  obtain ⟨root, s, bitmaps, hp⟩ := prepareMemory_cases sampleBoot_stackOutside h
  refine ⟨c, heapVirt, h, ?_⟩
  exact not_selfContained hp sampleBoot_bootable.allocator
    sampleBoot_separate sampleBoot_kernelOutside (by decide)

end Sample

end KermolAddressSpace
