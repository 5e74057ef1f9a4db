import Kermol.InitMemoryProofs
import Kermol.ContiguousProofs
import Kermol.PageMapProofs

/-! # The mappings of the kernel and of the loader's regions

    `map_kernel` maps the image in five loops, one for each section and one for
    what its region holds behind the sections.  With page-aligned sections the
    five loops cover one stretch of pages without a gap or an overlap
    (`kernelPagesIn_eq`), and which loop reached a page decides its flags
    (`kernelFlags`).  `map_misc` maps regions at their direct-map addresses. -/

namespace KermolKernelMap

open RustEffect X86Paging KermolFrameAllocator KermolPageTable KermolPageTree KermolMapStep
open KermolPageTableRun KermolPageMap KermolBitmap KermolFrameBitmap KermolBootTables
open KermolInitMemory KermolContiguous RadixTree

/-! ## The image as one stretch of pages -/

/-- Two neighbouring stretches of pages are one. -/
theorem pagesFrom_append (phys virt m n : Nat) :
    pagesFrom phys virt m ++ pagesFrom (phys + m * PAGE_SIZE) (virt + m * PAGE_SIZE) n
      = pagesFrom phys virt (m + n) := by
  simp only [pagesFrom, List.range_add, List.map_append, List.map_map, List.append_cancel_left_eq]
  refine List.map_congr_left fun i _ => ?_
  simp only [Function.comp, Nat.add_mul, Nat.add_assoc]

/-- The sections of the image begin and end on page boundaries. -/
structure ImageAligned (i : KernelImage) : Prop where
  reqs : i.limineReqsStart % PAGE_SIZE = 0
  text : i.textStart % PAGE_SIZE = 0
  rodata : i.rodataStart % PAGE_SIZE = 0
  data : i.dataStart % PAGE_SIZE = 0
  elf : i.elfEnd % PAGE_SIZE = 0

variable {b : BootInfo} {region : MemoryRegionInfo}

/-- An aligned section is a stretch of pages. -/
theorem sectionPages_eq {lo hi : Nat} (hlo : lo % PAGE_SIZE = 0) (hhi : hi % PAGE_SIZE = 0)
    (hbase : b.kernelAddr.virtualBase ≤ lo) :
    b.sectionPages lo hi = pagesFrom (lo - b.kernelAddr.virtualBase + b.kernelAddr.physicalBase)
      lo ((hi - lo) / PAGE_SIZE) := by
  have hcount : (hi - lo + PAGE_SIZE - 1) / PAGE_SIZE = (hi - lo) / PAGE_SIZE := by
    simp only [PAGE_SIZE] at *
    omega
  rw [BootInfo.sectionPages, stepBy, hcount, List.map_map, pagesFrom]
  refine List.map_congr_left fun i _ => ?_
  simp only [Function.comp, Prod.mk.injEq, and_true]
  omega

/-- A section and the pages behind it. -/
theorem sectionPages_append {lo hi : Nat} (n : Nat) (hlo : lo % PAGE_SIZE = 0)
    (hhi : hi % PAGE_SIZE = 0) (hbase : b.kernelAddr.virtualBase ≤ lo) (hle : lo ≤ hi) :
    b.sectionPages lo hi
        ++ pagesFrom (hi - b.kernelAddr.virtualBase + b.kernelAddr.physicalBase) hi n
      = pagesFrom (lo - b.kernelAddr.virtualBase + b.kernelAddr.physicalBase) lo
        ((hi - lo) / PAGE_SIZE + n) := by
  have hsize : (hi - lo) / PAGE_SIZE * PAGE_SIZE = hi - lo := by
    simp only [PAGE_SIZE] at *
    omega
  rw [sectionPages_eq hlo hhi hbase, ← pagesFrom_append, hsize]
  congr 2 <;> omega

theorem sizeInPages_sub {m n : Nat} (hm : m % PAGE_SIZE = 0) (h : m ≤ n) :
    m / PAGE_SIZE + sizeInPages (n - m) = sizeInPages n := by
  unfold sizeInPages PAGE_SIZE at *
  split <;> split <;> omega

/-- **NO GAP AND NO OVERLAP.**  The five loops of `map_kernel` go through the
    pages of the kernel's region in order. -/
theorem kernelPagesIn_eq (hal : ImageAligned b.image)
    (hbase : b.kernelAddr.virtualBase = b.image.limineReqsStart)
    (hlen : b.image.elfEnd - b.image.limineReqsStart ≤ region.length) :
    b.kernelPagesIn region
      = pagesFrom b.kernelAddr.physicalBase b.image.limineReqsStart
          (sizeInPages region.length) := by
  obtain ⟨h₁, h₂, h₃, h₄, h₅⟩ := hal
  have htext := b.image.text
  have hrodata := b.image.rodata
  have hdata := b.image.data
  have helf := b.image.elf
  have hmapped : (b.image.elfEnd - b.image.limineReqsStart) % PAGE_SIZE = 0 := by
    simp only [PAGE_SIZE] at *
    omega
  rw [BootInfo.kernelPagesIn, sectionPages_append _ h₄ h₅ (by omega) helf,
    sectionPages_append _ h₃ h₄ (by omega) hdata,
    sectionPages_append _ h₂ h₃ (by omega) hrodata,
    sectionPages_append _ h₁ h₂ (by omega) htext,
    hbase, Nat.sub_self, Nat.zero_add, ← sizeInPages_sub hmapped hlen]
  congr 1
  simp only [PAGE_SIZE] at *
  omega

/-! ## The flags of the image -/

/-- The flags of an address of the image: the text can be executed, the data
    can be written, the rest only be read. -/
def kernelFlags (i : KernelImage) (a : Nat) : PageTableFlags :=
  if i.textStart ≤ a ∧ a < i.rodataStart then .union flagsRx .GLOBAL
  else if i.dataStart ≤ a ∧ a < i.elfEnd then .union flagsRw .GLOBAL
  else .union flagsR .GLOBAL

/-- The leaf entries that `map_kernel` writes. -/
def kernelLeaves (b : BootInfo) (region : MemoryRegionInfo) : List (Nat × PageTableEntry) :=
  let i := b.image
  leavesOf (.union flagsR .GLOBAL) (b.sectionPages i.limineReqsStart i.textStart)
    ++ (leavesOf (.union flagsRx .GLOBAL) (b.sectionPages i.textStart i.rodataStart)
      ++ (leavesOf (.union flagsR .GLOBAL) (b.sectionPages i.rodataStart i.dataStart)
        ++ (leavesOf (.union flagsRw .GLOBAL) (b.sectionPages i.dataStart i.elfEnd)
          ++ leavesOf (.union flagsR .GLOBAL) (pagesFrom
            (i.elfEnd - b.kernelAddr.virtualBase + b.kernelAddr.physicalBase) i.elfEnd
            (sizeInPages (region.length - (i.elfEnd - i.limineReqsStart)))))))

section Image

variable {pt : RecursivePageTable} {root : PhysAddr}
  {s s' : PagingState LinearFrameAllocator} {touched : List Nat} {On : Nat → Nat → Prop}
  {v : VirtAddr}

/-- **`map_kernel`, AS LEAF WRITES.** -/
theorem mapKernel_laid (hb : BootState pt root s touched On)
    (h : mapKernel b pt region s = .ok (.ok (), s')) :
    Laid root (kernelLeaves b region) s s' := by
  obtain ⟨_, s₁, h₁, h⟩ := andThen_eq_ok h
  obtain ⟨_, s₂, h₂, h⟩ := andThen_eq_ok h
  obtain ⟨_, s₃, h₃, h⟩ := andThen_eq_ok h
  obtain ⟨_, s₄, h₄, h⟩ := andThen_eq_ok h
  -- each loop starts in the state that the one before left
  have hb₁ := (mapPages_boot (by decide) hb (mapKernelSection_loop h₁)).boot
  have hb₂ := (mapPages_boot (by decide) hb₁ (mapKernelSection_loop h₂)).boot
  have hb₃ := (mapPages_boot (by decide) hb₂ (mapKernelSection_loop h₃)).boot
  have hb₄ := (mapPages_boot (by decide) hb₃ (mapKernelSection_loop h₄)).boot
  have hl₁ := (mapPages_laid hb.wf (hb.fresh _) (mapKernelSection_loop h₁)).1
  have hl₂ := (mapPages_laid hb₁.wf (hb₁.fresh _) (mapKernelSection_loop h₂)).1
  have hl₃ := (mapPages_laid hb₂.wf (hb₂.fresh _) (mapKernelSection_loop h₃)).1
  have hl₄ := (mapPages_laid hb₃.wf (hb₃.fresh _) (mapKernelSection_loop h₄)).1
  have hl₅ := (mapPages_laid hb₄.wf (hb₄.fresh _) (mapKernelRest_loop h)).1
  exact hl₁.append (hl₂.append (hl₃.append (hl₄.append hl₅)))

/-- The entry of an address in a stretch of the image. -/
theorem mem_stretchLeaves (flags : PageTableFlags) {base phys lo n : Nat}
    (hlo : lo % PAGE_SIZE = 0) (hbase : base ≤ lo) (hle : lo ≤ v.addr)
    (hlt : v.addr < lo + n * PAGE_SIZE) :
    (v.page, entryAt (v.addr - v.addr % PAGE_SIZE - base + phys) flags)
      ∈ leavesOf flags (pagesFrom (lo - base + phys) lo n) := by
  refine mem_leavesOf.mpr ⟨v.addr / PAGE_SIZE - lo / PAGE_SIZE, ?_, ?_⟩
  · simp only [PAGE_SIZE] at *
    omega
  · unfold VirtAddr.page
    congr 2
    · simp only [PAGE_SIZE] at *
      omega
    · simp only [PAGE_SIZE] at *
      omega

theorem mem_sectionLeaves (flags : PageTableFlags) {lo hi : Nat} (hlo : lo % PAGE_SIZE = 0)
    (hhi : hi % PAGE_SIZE = 0) (hbase : b.kernelAddr.virtualBase ≤ lo) (hle : lo ≤ v.addr)
    (hlt : v.addr < hi) :
    (v.page, entryAt (v.addr - v.addr % PAGE_SIZE - b.kernelAddr.virtualBase
        + b.kernelAddr.physicalBase) flags) ∈ leavesOf flags (b.sectionPages lo hi) := by
  rw [sectionPages_eq hlo hhi hbase]
  refine mem_stretchLeaves flags hlo hbase hle ?_
  simp only [PAGE_SIZE] at *
  omega

/-- **WHICH LOOP REACHES A PAGE.**  Every address of the kernel's region gets
    the frame at its distance from the base, with the flags of its section. -/
theorem mem_kernelLeaves (hal : ImageAligned b.image)
    (hbase : b.kernelAddr.virtualBase = b.image.limineReqsStart)
    (hlen : b.image.elfEnd - b.image.limineReqsStart ≤ region.length)
    (hle : b.image.limineReqsStart ≤ v.addr)
    (hlt : v.addr < b.image.limineReqsStart + sizeInPages region.length * PAGE_SIZE) :
    (v.page, entryAt (v.addr - v.addr % PAGE_SIZE - b.kernelAddr.virtualBase
        + b.kernelAddr.physicalBase) (kernelFlags b.image v.addr))
      ∈ kernelLeaves b region := by
  obtain ⟨h₁, h₂, h₃, h₄, h₅⟩ := hal
  have htext := b.image.text
  have hrodata := b.image.rodata
  have hdata := b.image.data
  have helf := b.image.elf
  have hmapped : (b.image.elfEnd - b.image.limineReqsStart) % PAGE_SIZE = 0 := by
    simp only [PAGE_SIZE] at *
    omega
  have hcount := sizeInPages_sub hmapped hlen
  simp only [kernelLeaves, List.mem_append, kernelFlags]
  rcases Nat.lt_or_ge v.addr b.image.textStart with hv | hv₁
  · rw [if_neg (by omega), if_neg (by omega)]
    exact Or.inl (mem_sectionLeaves _ h₁ h₂ (by omega) hle hv)
  rcases Nat.lt_or_ge v.addr b.image.rodataStart with hv | hv₂
  · rw [if_pos ⟨hv₁, hv⟩]
    exact Or.inr (Or.inl (mem_sectionLeaves _ h₂ h₃ (by omega) hv₁ hv))
  rcases Nat.lt_or_ge v.addr b.image.dataStart with hv | hv₃
  · rw [if_neg (by omega), if_neg (by omega)]
    exact Or.inr (Or.inr (Or.inl (mem_sectionLeaves _ h₃ h₄ (by omega) hv₂ hv)))
  rcases Nat.lt_or_ge v.addr b.image.elfEnd with hv | hv₄
  · rw [if_neg (by omega), if_pos ⟨hv₃, hv⟩]
    exact Or.inr (Or.inr (Or.inr (Or.inl (mem_sectionLeaves _ h₄ h₅ (by omega) hv₃ hv))))
  · rw [if_neg (by omega), if_neg (by omega)]
    refine Or.inr (Or.inr (Or.inr (Or.inr (mem_stretchLeaves _ h₅ (by omega) hv₄ ?_))))
    simp only [PAGE_SIZE] at *
    omega

/-- The leaf entries are those of the pages of the image. -/
theorem kernelLeaves_page {w : Nat × PageTableEntry} (hw : w ∈ kernelLeaves b region) :
    ∃ m ∈ b.kernelPagesIn region, m.2 / PAGE_SIZE = w.1 := by
  simp only [kernelLeaves, leavesOf, List.mem_append, List.mem_map] at hw
  simp only [BootInfo.kernelPagesIn, List.mem_append]
  rcases hw with ⟨m, hm, rfl⟩ | ⟨m, hm, rfl⟩ | ⟨m, hm, rfl⟩ | ⟨m, hm, rfl⟩ | ⟨m, hm, rfl⟩
  · exact ⟨m, Or.inl hm, rfl⟩
  · exact ⟨m, Or.inr (Or.inl hm), rfl⟩
  · exact ⟨m, Or.inr (Or.inr (Or.inl hm)), rfl⟩
  · exact ⟨m, Or.inr (Or.inr (Or.inr (Or.inl hm))), rfl⟩
  · exact ⟨m, Or.inr (Or.inr (Or.inr (Or.inr hm))), rfl⟩

theorem kernelFlags_present (i : KernelImage) (a : Nat) :
    (kernelFlags i a).contains .PRESENT = true := by
  unfold kernelFlags
  split
  · decide
  · split <;> decide

theorem kernelFlags_global (i : KernelImage) (a : Nat) :
    (kernelFlags i a).contains .GLOBAL = true := by
  unfold kernelFlags
  split
  · decide
  · split <;> decide

/-- Only the text can be executed. -/
theorem kernelFlags_noExecute (i : KernelImage) (a : Nat) :
    (kernelFlags i a).contains .NO_EXECUTE = false ↔ i.textStart ≤ a ∧ a < i.rodataStart := by
  unfold kernelFlags
  split
  · next h => simp only [h, and_self, iff_true]; decide
  · next h =>
      simp only [h, iff_false]
      split <;> decide

/-- Only the data can be written. -/
theorem kernelFlags_writable (i : KernelImage) (a : Nat) :
    (kernelFlags i a).contains .WRITABLE = true ↔ i.dataStart ≤ a ∧ a < i.elfEnd := by
  have hdata := i.data
  unfold kernelFlags
  split
  · next h =>
      have hnot : ¬ (i.dataStart ≤ a ∧ a < i.elfEnd) := by omega
      simp only [hnot, iff_false]
      decide
  · split
    · next h => simp only [h, and_self, iff_true]; decide
    · next h => simp only [h, iff_false]; decide

/-- The addresses of the kernel's region. -/
def InKernel (b : BootInfo) (region : MemoryRegionInfo) (a : Nat) : Prop :=
  b.image.limineReqsStart ≤ a
    ∧ a < b.image.limineReqsStart + sizeInPages region.length * PAGE_SIZE

/-- What the memory map and the image must meet: the sections lie in the region,
    and the region fits below the top of both address spaces. -/
structure KernelFits (b : BootInfo) (region : MemoryRegionInfo) : Prop where
  aligned : ImageAligned b.image
  base : b.kernelAddr.virtualBase = b.image.limineReqsStart
  phys : b.kernelAddr.physicalBase % PAGE_SIZE = 0
  length : b.image.elfEnd - b.image.limineReqsStart ≤ region.length
  top : b.image.limineReqsStart + region.length ≤ 2 ^ 64
  physEnd : b.kernelAddr.physicalBase + (b.image.elfEnd - b.image.limineReqsStart) < 2 ^ 52
  physTop : b.kernelAddr.physicalBase + region.length ≤ 2 ^ 52

/-- The region in whole pages still fits. -/
theorem KernelFits.pages (h : KernelFits b region) :
    b.image.limineReqsStart + sizeInPages region.length * PAGE_SIZE ≤ 2 ^ 64
      ∧ b.kernelAddr.physicalBase + sizeInPages region.length * PAGE_SIZE ≤ 2 ^ 52 := by
  have hreqs := h.aligned.reqs
  have hphys := h.phys
  have htop := h.top
  have hptop := h.physTop
  unfold sizeInPages PAGE_SIZE at *
  split <;> omega

/-- The pages of the region can all be mapped in a fresh table. -/
theorem KernelFits.plan (h : KernelFits b region)
    (hroom : Room pt.internalOffset
      (s.alloc.cursor.addr + 3 * sizeInPages region.length * PAGE_SIZE)) :
    Plan pt (fun _ _ => False) s (b.kernelPagesIn region) := by
  obtain ⟨htop, hptop⟩ := h.pages
  have hhigh := b.image.high
  have hphys := h.phys
  rw [kernelPagesIn_eq h.aligned h.base h.length]
  refine ⟨?_, nodup_pagesFrom _ _ _, fun _ _ _ hf => hf, by rwa [pagesFrom_length]⟩
  intro m hm
  obtain ⟨i, hi, rfl⟩ := mem_pagesFrom.mp hm
  have hlt : i * PAGE_SIZE < sizeInPages region.length * PAGE_SIZE :=
    Nat.mul_lt_mul_of_pos_right hi (by decide)
  refine ⟨by dsimp only; omega, ?_, ?_⟩
  · dsimp only
    rw [Nat.add_mul_mod_self_right]
    exact hphys
  · refine ⟨⟨b.image.limineReqsStart + i * PAGE_SIZE, Or.inr (by omega)⟩, rfl, fun hrec => ?_⟩
    have hidx : (b.image.limineReqsStart + i * PAGE_SIZE) / 2 ^ 39 % 512 = 510 :=
      congrArg Fin.val hrec
    omega

theorem KernelFits.imageOk (h : KernelFits b region) : ImageOk b region := by
  have hbase := h.base
  have hphys := h.physEnd
  have htop := h.pages.1
  have hhigh := b.image.high
  have hfits := b.image.fits
  have htext := b.image.text
  have hrodata := b.image.rodata
  have hdata := b.image.data
  have helf := b.image.elf
  have hsize := h.length
  have hlength := h.top
  refine ⟨by omega, hsize, by omega, Or.inr (by omega), ?_⟩
  unfold sizeInPages PAGE_SIZE
  split <;> omega

/-- The frame of an address of the image is in the address space, -/
theorem KernelFits.frame_lt (h : KernelFits b region) (hv : InKernel b region v.addr) :
    v.addr - v.addr % PAGE_SIZE - b.kernelAddr.virtualBase + b.kernelAddr.physicalBase
      < 2 ^ 52 := by
  have hpages := h.pages.2
  have hbase := h.base
  have hle := hv.1
  have hlt := hv.2
  omega

/-- and starts a page. -/
theorem KernelFits.frame_aligned (h : KernelFits b region) :
    (v.addr - v.addr % PAGE_SIZE - b.kernelAddr.virtualBase + b.kernelAddr.physicalBase)
      % PAGE_SIZE = 0 := by
  have hbase := h.base
  have hreqs := h.aligned.reqs
  have hphys := h.phys
  simp only [PAGE_SIZE] at *
  omega

/-- The mapping of an address of the image. -/
def kernelMapping (h : KernelFits b region) (v : VirtAddr) (hv : InKernel b region v.addr) :
    Mapping where
  frame := ⟨v.addr - v.addr % PAGE_SIZE - b.kernelAddr.virtualBase
      + b.kernelAddr.physicalBase, h.frame_lt hv⟩
  flags := kernelFlags b.image v.addr
  aligned := h.frame_aligned
  present := kernelFlags_present _ _

theorem kernelMapping_phys (h : KernelFits b region) (hv : InKernel b region v.addr) :
    ((kernelMapping h v hv).phys v).addr
      = v.addr - b.kernelAddr.virtualBase + b.kernelAddr.physicalBase := by
  have hbase := h.base
  have hreqs := h.aligned.reqs
  have hle := hv.1
  show v.addr - v.addr % PAGE_SIZE - b.kernelAddr.virtualBase + b.kernelAddr.physicalBase
    + v.addr % PAGE_SIZE = _
  simp only [PAGE_SIZE] at *
  omega

/-- What the tables say about the image once `map_kernel` returned. -/
theorem mapKernel_leaf (h : KernelFits b region) (hb : BootState pt root s [] fun _ _ => False)
    (hmap : mapKernel b pt region s = .ok (.ok (), s')) (hv : pageIndex 4 v ≠ RECURSIVE) :
    (∀ hin : InKernel b region v.addr,
        leafEntry root s'.mem v = some (kernelMapping h v hin).entry)
      ∧ (¬ InKernel b region v.addr → leafEntry root s'.mem v = none) := by
  have hlaid := mapKernel_laid hb hmap
  constructor
  · intro hin
    exact hlaid.here v hv _ (mem_kernelLeaves h.aligned h.base h.length hin.1 hin.2) rfl
      (kernelMapping h v hin).isUnused_entry
  · intro hout
    have hfresh : leafEntry root s.mem v = none := by
      cases he : leafEntry root s.mem v with
      | none => rfl
      | some e => exact ((hb.leaf v hv _).mp ⟨e, he, rfl⟩).elim
    rw [hlaid.there v hv, hfresh]
    intro w hw hpage
    obtain ⟨m, hm, hmw⟩ := kernelLeaves_page hw
    rw [kernelPagesIn_eq h.aligned h.base h.length] at hm
    obtain ⟨i, hi, rfl⟩ := mem_pagesFrom.mp hm
    have hreqs := h.aligned.reqs
    refine hout ⟨?_, ?_⟩
    · simp only [VirtAddr.page, PAGE_SIZE] at *
      omega
    · simp only [VirtAddr.page, PAGE_SIZE] at *
      omega

/-- **THE KERNEL IS MAPPED EXACTLY, AND WRITE XOR EXECUTE.**  On a fresh table
    and with room for its tables `map_kernel` returns `Ok`.  Outside the
    recursive slot the addresses of the kernel's region, in whole pages, are
    mapped to the addresses at the same distance from the physical base, and no
    others.  The processor grants execution on the text alone and writing on
    the data alone. -/
theorem mapKernel_exact (hnew : RecursivePageTable.new b.hhdm s = .ok (pt, s'))
    (h : KernelFits b region)
    (hroom : Room b.hhdm.offset.addr
      (s'.alloc.cursor.addr + 3 * sizeInPages region.length * PAGE_SIZE)) :
    ∃ s₁ root pt', mapKernel b pt region s' = .ok (.ok (), s₁) ∧ pt.load = .ok (pt', root)
      ∧ ∀ v, pageIndex 4 v ≠ RECURSIVE →
        (InKernel b region v.addr → ∃ (q : PhysAddr) (t : Translation),
          pt.translate s₁.mem v = .ok (some q) ∧ hardwareWalk s₁.mem root v = some t
          ∧ q.addr = v.addr - b.kernelAddr.virtualBase + b.kernelAddr.physicalBase
          ∧ t.phys = q.addr ∧ t.flags.contains .GLOBAL = true
          ∧ (t.flags.contains .NO_EXECUTE = false
            ↔ b.image.textStart ≤ v.addr ∧ v.addr < b.image.rodataStart)
          ∧ (t.flags.contains .WRITABLE = true
            ↔ b.image.dataStart ≤ v.addr ∧ v.addr < b.image.elfEnd)
          ∧ t.noExecute = t.flags.contains .NO_EXECUTE
          ∧ t.writable = t.flags.contains .WRITABLE
          ∧ ¬ (t.writable = true ∧ t.noExecute = false))
        ∧ (¬ InKernel b region v.addr →
          pt.translate s₁.mem v = .ok none ∧ hardwareWalk s₁.mem root v = none) := by
  obtain ⟨root, hb, hoff, -, -, -⟩ := new_boot hnew
  rw [← hoff] at hroom
  have hcan : IsCanonical pt.internalOffset := hoff ▸ b.hhdm.offset.canonical
  obtain ⟨s₁, hmap⟩ := mapKernel_total h.imageOk hcan hb (h.plan hroom)
  have hwf₁ := (mapKernel_placed hb hmap).boot.wf
  refine ⟨s₁, root, _, hmap, load_eq hb.wf, fun v hv => ?_⟩
  obtain ⟨hin, hout⟩ := mapKernel_leaf h hb hmap hv
  constructor
  · intro hk
    have hdata := b.image.data
    have hnx := kernelFlags_noExecute b.image v.addr
    have hw := kernelFlags_writable b.image v.addr
    refine ⟨(kernelMapping h v hk).phys v, (kernelMapping h v hk).translation v, ?_,
      hardwareWalk_some hwf₁ hv _ (hin hk), kernelMapping_phys h hk, rfl,
      kernelFlags_global _ _, hnx, hw, rfl, rfl, ?_⟩
    · rw [translate_eq hv hwf₁, hin hk, Option.map_some, physAt_entry]
    · rintro ⟨hwrite, hexec⟩
      have hwrite' := hw.mp hwrite
      have hexec' := hnx.mp hexec
      omega
  · intro hk
    exact ⟨(translate_eq_none hv hwf₁).mpr (hout hk), hardwareWalk_none hwf₁ hv (hout hk)⟩

end Image

/-! ### A kernel of four pages -/

/-- The image at a given physical base. -/
def sampleKernelAt (physicalBase : Nat) : BootInfo where
  rammapEntries := []
  hhdm := sampleHhdm
  kernelAddr := ⟨0xFFFFFFFF80000000, physicalBase⟩
  image := sampleImage
  entryStackPointer := 0

theorem sampleImage_aligned : ImageAligned sampleImage :=
  ⟨by decide, by decide, by decide, by decide, by decide⟩

theorem mapKernel_exact_sample :
    ∃ pt s₀ s₁ root pt', RecursivePageTable.new sampleHhdm sampleState = .ok (pt, s₀)
      ∧ mapKernel (sampleKernelAt 0x800000) pt sampleKernelRegion s₀ = .ok (.ok (), s₁)
      ∧ pt.load = .ok (pt', root)
      ∧ ∀ v, pageIndex 4 v ≠ RECURSIVE →
        ¬ InKernel (sampleKernelAt 0x800000) sampleKernelRegion v.addr →
        hardwareWalk s₁.mem root v = none := by
  have hfits : KernelFits (sampleKernelAt 0x800000) sampleKernelRegion :=
    ⟨sampleImage_aligned, rfl, rfl, by decide, by decide, by decide, by decide⟩
  obtain ⟨-, hlive, hnf⟩ := sampleState_contract (k := 1) (by decide)
  obtain ⟨pt, s₀, hnew⟩ := new_total hlive hnf
  obtain ⟨root, -, -, -, -, hcur⟩ := new_boot hnew
  have hroom : Room sampleHhdm.offset.addr (s₀.alloc.cursor.addr
      + 3 * sizeInPages sampleKernelRegion.length * PAGE_SIZE) := by
    rw [hcur]
    exact ⟨by decide, by decide, fun h => absurd h (by decide)⟩
  obtain ⟨s₁, root', pt', hmap, hload, hview⟩ :=
    mapKernel_exact (b := sampleKernelAt 0x800000) hnew hfits hroom
  exact ⟨pt, s₀, s₁, root', pt', hnew, hmap, hload, fun v hv hout => ((hview v hv).2 hout).2⟩

/-- The image ends where the physical addresses end, and `map_kernel` panics on
    the frame behind it although nothing is left to map there. -/
theorem mapKernel_panics_at_top :
    ∃ pt s₀, RecursivePageTable.new sampleHhdm sampleState = .ok (pt, s₀)
      ∧ ImageAligned (sampleKernelAt 0xFFFFFFFFFC000).image
      ∧ (sampleKernelAt 0xFFFFFFFFFC000).kernelAddr.virtualBase
        = (sampleKernelAt 0xFFFFFFFFFC000).image.limineReqsStart
      ∧ (sampleKernelAt 0xFFFFFFFFFC000).kernelAddr.physicalBase % PAGE_SIZE = 0
      ∧ (sampleKernelAt 0xFFFFFFFFFC000).image.elfEnd
        - (sampleKernelAt 0xFFFFFFFFFC000).image.limineReqsStart ≤ sampleKernelRegion.length
      ∧ (sampleKernelAt 0xFFFFFFFFFC000).image.limineReqsStart + sampleKernelRegion.length
        ≤ 2 ^ 64
      ∧ mapKernel (sampleKernelAt 0xFFFFFFFFFC000) pt sampleKernelRegion s₀
        = .error .invalidAddress := by
  have h : (show Panics _ from do
      let made ← RecursivePageTable.new sampleHhdm sampleState
      return (mapKernel (sampleKernelAt 0xFFFFFFFFFC000) made.1 sampleKernelRegion made.2).map
        Prod.fst)
      = .ok (.error .invalidAddress) := by decide +kernel
  obtain ⟨⟨pt, s₀⟩, hnew, h⟩ := bind_eq_ok.mp h
  refine ⟨pt, s₀, hnew, sampleImage_aligned, rfl, rfl, by decide, by decide, ?_⟩
  have hpanic := Except.ok.inj h
  revert hpanic
  generalize mapKernel (sampleKernelAt 0xFFFFFFFFFC000) pt sampleKernelRegion s₀ = x
  intro hpanic
  cases x with
  | error e =>
      cases hpanic
      rfl
  | ok y => cases hpanic

/-! ## The offset map -/

section Misc

variable {pt : RecursivePageTable} {root : PhysAddr} {s s₀ s₁ : PagingState LinearFrameAllocator}
  {ops : List Op} {rs : List (Except PagingError Unit)}

/-- The regions that are mapped at their direct-map addresses. -/
def IsMisc (r : MemoryRegionInfo) : Prop :=
  r.type = .framebuffer ∨ r.type = .acpiNvs ∨ r.type = .acpiReclaimable
    ∨ r.type = .acpiTables ∨ r.type = .bootloaderReclaimable

theorem isMisc_iff {r : MemoryRegionInfo} : IsMisc r ↔ (miscFlags r.type).isSome = true := by
  rw [IsMisc]
  cases r.type <;> simp [miscFlags]

instance (r : MemoryRegionInfo) : Decidable (IsMisc r) := decidable_of_iff _ isMisc_iff.symm

/-- The direct-map addresses of the pages of a region. -/
def InRegion (b : BootInfo) (r : MemoryRegionInfo) (a : Nat) : Prop :=
  r.base + b.hhdm.offset.addr ≤ a
    ∧ a < r.base + b.hhdm.offset.addr + sizeInPages r.length * PAGE_SIZE

/-- What `map_misc` asks of the memory map: the regions it maps begin on page
    boundaries and share no page, and their direct-map addresses are canonical,
    outside the recursive slot and not mapped. -/
structure MiscFits (b : BootInfo) (pt : RecursivePageTable) (mem : PhysMem) : Prop where
  aligned : ∀ r ∈ b.rammapEntries, IsMisc r → r.base % PAGE_SIZE = 0
  canonical : ∀ r ∈ b.rammapEntries, IsMisc r → IsCanonical (r.base + b.hhdm.offset.addr)
  target : ∀ r ∈ b.rammapEntries, IsMisc r → ∀ i < sizeInPages r.length,
    ∃ v : VirtAddr, v.addr = r.base + b.hhdm.offset.addr + i * PAGE_SIZE
      ∧ pageIndex 4 v ≠ RECURSIVE ∧ pt.translate mem v = .ok none
  disjoint : (b.rammapEntries.filter fun r => IsMisc r).Pairwise fun r r' =>
    ∀ i < sizeInPages r.length, ∀ j < sizeInPages r'.length,
      r.base + i * PAGE_SIZE ≠ r'.base + j * PAGE_SIZE

theorem mem_regionPages {r : MemoryRegionInfo} {m : Nat × Nat} :
    m ∈ b.regionPages r ↔ IsMisc r ∧ ∃ i < sizeInPages r.length,
      m = (r.base + i * PAGE_SIZE, r.base + b.hhdm.offset.addr + i * PAGE_SIZE) := by
  rw [BootInfo.regionPages, isMisc_iff]
  split
  · next h => simp [h, mem_pagesFrom]
  · next h => simp [h]

/-- The page of a region that an address lies in, and the byte behind it. -/
theorem inRegion_page {r : MemoryRegionInfo} {v : VirtAddr} (hal : r.base % PAGE_SIZE = 0)
    (hin : InRegion b r v.addr) :
    ∃ i < sizeInPages r.length,
      v.page = (r.base + b.hhdm.offset.addr + i * PAGE_SIZE) / PAGE_SIZE
      ∧ r.base + i * PAGE_SIZE + v.addr % PAGE_SIZE = v.addr - b.hhdm.offset.addr := by
  have hoff := b.hhdm.aligned
  obtain ⟨hle, hlt⟩ := hin
  refine ⟨(v.addr - (r.base + b.hhdm.offset.addr)) / PAGE_SIZE, ?_, ?_, ?_⟩
  · rw [Nat.div_lt_iff_lt_mul (by decide)]
    omega
  · simp only [VirtAddr.page, PAGE_SIZE] at *
    omega
  · simp only [PAGE_SIZE] at *
    omega

namespace MiscFits

/-- A page of a region has a target that can be mapped. -/
theorem page (h : MiscFits b pt s.mem) {m : Nat × Nat} (hm : m ∈ b.miscPages) :
    m.1 % PAGE_SIZE = 0 ∧ m.2 = m.1 + b.hhdm.offset.addr
      ∧ ∃ v : VirtAddr, v.addr = m.2 ∧ pageIndex 4 v ≠ RECURSIVE
        ∧ pt.translate s.mem v = .ok none := by
  obtain ⟨r, hr, hm⟩ := List.mem_flatMap.mp hm
  obtain ⟨hmisc, i, hi, rfl⟩ := mem_regionPages.mp hm
  refine ⟨?_, by dsimp only; omega, h.target r hr hmisc i hi⟩
  dsimp only
  rw [Nat.add_mul_mod_self_right]
  exact h.aligned r hr hmisc

/-- No page is mapped twice. -/
theorem nodup (h : MiscFits b pt s.mem) :
    (b.miscPages.map fun m => m.2 / PAGE_SIZE).Nodup := by
  rw [BootInfo.miscPages, List.map_flatMap, List.nodup_flatMap]
  refine ⟨fun r _ => ?_, ?_⟩
  · rw [BootInfo.regionPages]
    split
    · exact nodup_pagesFrom _ _ _
    · exact List.nodup_nil
  · refine List.Pairwise.imp_of_mem ?_ (List.pairwise_filter.mp h.disjoint)
    intro r r' hr hr' hne w hw hw'
    obtain ⟨m, hm, rfl⟩ := List.mem_map.mp hw
    obtain ⟨m', hm', hpage⟩ := List.mem_map.mp hw'
    obtain ⟨hmisc, i, hi, rfl⟩ := mem_regionPages.mp hm
    obtain ⟨hmisc', j, hj, rfl⟩ := mem_regionPages.mp hm'
    refine hne (decide_eq_true hmisc) (decide_eq_true hmisc') i hi j hj ?_
    have hal := h.aligned r hr hmisc
    have hal' := h.aligned r' hr' hmisc'
    have hoff := b.hhdm.aligned
    simp only [PAGE_SIZE] at *
    omega

/-- The regions lie where the direct map in the higher half can reach them. -/
theorem regionOk (h : MiscFits b pt s.mem) (hhalf : 2 ^ 64 - 2 ^ 47 ≤ b.hhdm.offset.addr)
    {r : MemoryRegionInfo} (hr : r ∈ b.rammapEntries) (hmisc : IsMisc r) : RegionOk b r := by
  have hcan := h.canonical r hr hmisc
  refine ⟨?_, hcan, ?_⟩
  · unfold IsCanonical at hcan
    omega
  · rcases Nat.eq_zero_or_pos (sizeInPages r.length) with hzero | hpos
    · rw [hzero]
      decide
    · obtain ⟨v, hv, -, -⟩ := h.target r hr hmisc (sizeInPages r.length - 1) (by omega)
      have hlast := v.canonical
      unfold IsCanonical at hlast
      simp only [PAGE_SIZE] at *
      omega

/-- Every page of a region can be mapped. -/
theorem mappable (h : MiscFits b pt s.mem) (hhalf : 2 ^ 64 - 2 ^ 47 ≤ b.hhdm.offset.addr) :
    ∀ m ∈ b.miscPages, Mappable m := by
  intro m hm
  obtain ⟨hal, heq, v, hv, hout, -⟩ := h.page hm
  have hcan := v.canonical
  unfold IsCanonical at hcan
  exact ⟨by omega, hal, v, hv, hout⟩

theorem unmapped (h : MiscFits b pt s.mem) (hwf : TreeWF pt root s.mem) :
    Unmapped root s.mem b.miscPages := by
  rintro v hv ⟨m, hm, hpage⟩
  obtain ⟨-, -, u, hu, hout, hnone⟩ := h.page hm
  have hsame : v.page = u.page := by
    rw [← hpage, VirtAddr.page, hu]
    rfl
  rw [leafEntry_congr hsame]
  exact (translate_eq_none hout hwf).mp hnone

end MiscFits

/-- **`map_misc` BUILDS THE OFFSET MAP.**  Limine's direct map lies in the higher
    half.  On every page table reached from `new` and with an allocator that
    does not fail, `map_misc` returns `Ok`; afterwards the direct-map address of
    every byte of a page of the regions translates to that byte, and every
    other translation outside the recursive slot is as it was. -/
theorem mapMisc_exact (hnew : RecursivePageTable.new b.hhdm s = .ok (pt, s₀))
    (hops : ∀ op ∈ ops, op.Outside) (hrun : run pt ops s₀ = .ok (rs, s₁))
    (hhalf : 2 ^ 64 - 2 ^ 47 ≤ b.hhdm.offset.addr) (hfits : MiscFits b pt s₁.mem)
    (hlive : Live pt.internalOffset (3 * b.miscPages.length) s₁.alloc)
    (hnf : NeverFails (3 * b.miscPages.length) s₁.alloc) :
    ∃ s₂, mapMisc b pt s₁ = .ok (.ok (), s₂)
      ∧ ∀ v, pageIndex 4 v ≠ RECURSIVE →
        (∀ r ∈ b.rammapEntries, IsMisc r → InRegion b r v.addr →
          ∃ q : PhysAddr, q.addr = v.addr - b.hhdm.offset.addr
            ∧ pt.translate s₂.mem v = .ok (some q))
        ∧ ((∀ r ∈ b.rammapEntries, IsMisc r → ¬ InRegion b r v.addr) →
          pt.translate s₂.mem v = pt.translate s₁.mem v) := by
  obtain ⟨-, -, hoff, -, -⟩ := new_cases hnew
  obtain ⟨root, _, -, hwf, hfresh⟩ := reached hnew hops hrun
    (LinearFrameAllocator.fresh_linear _ ∅ _ fun _ hf => absurd hf (Set.notMem_empty _))
  obtain ⟨r, s₂, hloop, hok⟩ := mapPages_returns flagsRwx (hfits.mappable hhalf) hwf hfresh hlive
  cases hok hnf hfits.nodup (hfits.unmapped hwf)
  obtain ⟨hlaid, hkept, -⟩ := mapPages_laid hwf hfresh hloop
  have hmisc : ∀ r ∈ b.rammapEntries, (miscFlags r.type).isSome → RegionOk b r :=
    fun r hr hsome => hfits.regionOk hhalf hr (isMisc_iff.mpr hsome)
  refine ⟨s₂, mapRegions_of_loop hoff hmisc hloop, fun v hv => ⟨?_, ?_⟩⟩
  · intro r hr hrm hin
    obtain ⟨i, hi, hpage, hbyte⟩ := inRegion_page (hfits.aligned r hr hrm) hin
    have hm : (r.base + i * PAGE_SIZE, r.base + b.hhdm.offset.addr + i * PAGE_SIZE)
        ∈ b.miscPages := List.mem_flatMap.mpr ⟨r, hr, mem_regionPages.mpr ⟨hrm, i, hi, rfl⟩⟩
    have hmap := hfits.mappable hhalf _ hm
    rw [← hbyte]
    exact translate_entryAt hv hkept.wf hmap.phys hmap.aligned
      (hlaid.here v hv _ (List.mem_map_of_mem hm) hpage.symm
        (PageTableEntry.isUnused_ofAddr (a := ⟨_, hmap.phys⟩) flagsRwx_present))
  · intro hout
    refine translate_congr hv hwf hkept.wf (hlaid.there v hv ?_)
    intro w hw hpage
    obtain ⟨m, hm, rfl⟩ := List.mem_map.mp hw
    obtain ⟨r, hr, hm⟩ := List.mem_flatMap.mp hm
    obtain ⟨hrm, i, hi, rfl⟩ := mem_regionPages.mp hm
    have hal := hfits.aligned r hr hrm
    have halign := b.hhdm.aligned
    refine hout r hr hrm ?_
    unfold InRegion VirtAddr.page PAGE_SIZE at *
    dsimp only at hpage
    omega

/-- Two pages of the loader, a framebuffer of one page and some free memory. -/
def sampleMisc : BootInfo :=
  { sampleKernelAt 0x800000 with rammapEntries :=
      [⟨0x200000, 0x2000, .bootloaderReclaimable, by decide⟩,
        ⟨0x1000000, 0x4000, .usable, by decide⟩, ⟨0x300000, 0x1000, .framebuffer, by decide⟩] }

theorem sampleMisc_fits (hwf : TreeWF pt root s.mem)
    (hnone : ∀ v, pageIndex 4 v ≠ RECURSIVE → leafEntry root s.mem v = none) :
    MiscFits sampleMisc pt s.mem where
  aligned := by decide
  canonical := by decide
  target := by
    intro r hr hmisc i hi
    have haddr : r.base + i * PAGE_SIZE < 0x400000 := by
      revert i
      revert r
      decide
    have hoff : sampleMisc.hhdm.offset.addr = 0xFFFF800000000000 := rfl
    rw [hoff]
    let v : VirtAddr := ⟨r.base + 0xFFFF800000000000 + i * PAGE_SIZE, Or.inr (by omega)⟩
    have hv : pageIndex 4 v ≠ RECURSIVE := by
      intro h
      have hidx : (r.base + 0xFFFF800000000000 + i * PAGE_SIZE) / 2 ^ 39 % 512 = 510 :=
        congrArg Fin.val h
      omega
    exact ⟨v, rfl, hv, (translate_eq_none hv hwf).mpr (hnone v hv)⟩
  disjoint := by decide

theorem mapMisc_exact_sample :
    ∃ pt s₀ s₁, RecursivePageTable.new sampleHhdm sampleState = .ok (pt, s₀)
      ∧ mapMisc sampleMisc pt s₀ = .ok (.ok (), s₁)
      ∧ ∀ v, pageIndex 4 v ≠ RECURSIVE →
        (∀ r ∈ sampleMisc.rammapEntries, IsMisc r → ¬ InRegion sampleMisc r v.addr) →
        pt.translate s₁.mem v = pt.translate s₀.mem v := by
  obtain ⟨-, hlive, hnf⟩ := sampleState_contract (k := 3 * sampleMisc.miscPages.length + 1)
    (by decide)
  obtain ⟨pt, s₀, hnew⟩ := new_total (live_mono hlive (by omega))
    (neverFails_mono hnf (by omega))
  obtain ⟨root, halloc, hoff, hwf, hmem⟩ := new_cases hnew
  have hlive₀ := live_new halloc hlive
  rw [← hoff] at hlive₀
  have hfits : MiscFits sampleMisc pt s₀.mem := by
    refine sampleMisc_fits hwf fun v hv => ?_
    rw [hmem]
    exact leafEntry_newMem hv
  have hops : ∀ op ∈ ([] : List Op), op.Outside := nofun
  obtain ⟨s₁, hmap, hview⟩ := mapMisc_exact (b := sampleMisc) hnew hops rfl (by decide) hfits
    hlive₀ (neverFails_new halloc hnf)
  exact ⟨pt, s₀, s₁, hnew, hmap, fun v hv => (hview v hv).2⟩

end Misc

end KermolKernelMap
