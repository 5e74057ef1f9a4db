import Kermol.PreparedMemoryProofs
import Kermol.KernelMapProofs

/-! # The mappings that boot makes

    `init_memory` maps the kernel, the regions of the memory map and the heap,
    takes the guard page away and gives the stack other flags.  Each step is one
    change of the leaf entries: `Leaves` says what they are, and there is one
    lemma for each kind of change.

    `AtLoad` is the whole of it, read off Limine's answers and the linker's
    symbols, and `prepareMemory_space` says that these are the leaf entries
    when `load` is reached. -/

namespace KermolBootMap

open RustEffect X86Paging KermolFrameAllocator KermolPageTable KermolPageTree
open KermolMapStep KermolPageTableRun KermolBootTables KermolContiguous KermolPageMap
open KermolFrameBitmap KermolController KermolInitMemory KermolPrepared KermolKernelMap
open KermolBitmap RadixTree

/-! ## Changes of the leaf entries -/

section Changes

variable {σ : Type} {pt : RecursivePageTable} {root : PhysAddr} {mem : PhysMem}
  {s s' : PagingState σ} {R : Nat → PageTableEntry → Prop} {flags : PageTableFlags}
  {v : VirtAddr}

/-- Outside the recursive slot, the leaf entry of a page is `e` where `R page e`
    says so. -/
def Leaves (root : PhysAddr) (mem : PhysMem) (R : Nat → PageTableEntry → Prop) : Prop :=
  ∀ v, pageIndex 4 v ≠ RECURSIVE → ∀ e, leafEntry root mem v = some e ↔ R v.page e

theorem Leaves.congr {R' : Nat → PageTableEntry → Prop} (h : Leaves root mem R)
    (hiff : ∀ page e, R page e ↔ R' page e) : Leaves root mem R' :=
  fun v hv e => (h v hv e).trans (hiff _ _)

/-- Mappings add their entries. -/
theorem Leaves.laid {ws : List (Nat × PageTableEntry)} (h : Leaves root s.mem R)
    (hlaid : Laid root ws s s') (hused : ∀ w ∈ ws, w.2.isUnused = false) :
    Leaves root s'.mem fun page e => R page e ∨ (page, e) ∈ ws := by
  intro v hv e
  by_cases hin : ∃ w ∈ ws, w.1 = v.page
  · obtain ⟨w, hw, hpage⟩ := hin
    have habsent := hlaid.absent v hv w hw hpage
    have hhere := fun u hu hup => hlaid.here v hv u hu hup (hused u hu)
    constructor
    · intro he
      right
      rw [← Option.some.inj ((hhere w hw hpage).symm.trans he), ← hpage]
      exact hw
    · rintro (hr | hmem)
      · rw [(h v hv e).mpr hr] at habsent
        cases habsent
      · exact hhere _ hmem rfl
  · rw [hlaid.there v hv fun w hw hpage => hin ⟨w, hw, hpage⟩, h v hv e]
    exact ⟨Or.inl, fun hr => hr.resolve_right fun hmem => hin ⟨_, hmem, rfl⟩⟩

/-- One leaf entry is written over. -/
theorem Leaves.write (h : Leaves root mem R) (hwf : TreeWF pt root mem)
    (hv : pageIndex 4 v ≠ RECURSIVE) {t : Nat}
    (ht : walk child mem root.addr (tablePath v) = some t) (e : PageTableEntry) :
    Leaves root (setEntry mem t (pageIndex 1 v) e) fun page e' =>
      if page = v.page then e.isUnused = false ∧ e' = e else R page e' := by
  intro w hw e'
  dsimp only
  by_cases hpage : w.page = v.page
  · rw [leafEntry_leaf_same hwf hv ht e hpage, if_pos hpage]
    cases hu : e.isUnused with
    | true => simp
    | false => simp [eq_comm]
  · rw [leafEntry_leaf_other hwf hv hw ht e hpage, if_neg hpage]
    exact h w hw e'

/-- `unmap` takes the entry away. -/
theorem Leaves.unmap (h : Leaves root s.mem R) (hwf : TreeWF pt root s.mem)
    (hv : pageIndex 4 v ≠ RECURSIVE) (hunmap : pt.unmap v s = .ok (.ok (), s')) :
    Leaves root s'.mem (fun page e => page ≠ v.page ∧ R page e)
      ∧ TreeWF pt root s'.mem := by
  rcases unmap_cases hv hwf with ⟨-, heq⟩ | ⟨t, ht, -, heq⟩
  · cases heq.symm.trans hunmap
  · cases heq.symm.trans hunmap
    refine ⟨(h.write hwf hv ht .new).congr fun page e => ?_, treeWF_leaf hwf hv ht _⟩
    by_cases hpage : page = v.page
    · rw [if_pos hpage]
      exact iff_of_false (fun h => by cases h.1) fun h => h.1 hpage
    · rw [if_neg hpage]
      exact ⟨fun hr => ⟨hpage, hr⟩, And.right⟩

/-- `update_flags` gives the entry other flags, if there is one. -/
theorem Leaves.updateFlags (h : Leaves root s.mem R) (hwf : TreeWF pt root s.mem)
    (hv : pageIndex 4 v ≠ RECURSIVE) (hpres : flags.contains .PRESENT = true)
    (hupdate : pt.updateFlags v flags s = .ok (.ok (), s')) :
    Leaves root s'.mem (fun page e => ∃ e₀, R page e₀
        ∧ e = if page = v.page then e₀.setFlags flags else e₀)
      ∧ TreeWF pt root s'.mem := by
  rcases updateFlags_cases flags hv hwf with ⟨hnone, heq⟩ | ⟨t, ht, hleaf, heq⟩
  · obtain ⟨-, rfl⟩ := Prod.mk.inj (Except.ok.inj (heq.symm.trans hupdate))
    refine ⟨h.congr fun page e => ?_, hwf⟩
    have habsent : ∀ e₀, ¬ R v.page e₀ := by
      intro e₀ hr
      rw [(h v hv e₀).mpr hr] at hnone
      cases hnone
    by_cases hpage : page = v.page
    · subst hpage
      exact iff_of_false (habsent e) fun ⟨e₀, hr, _⟩ => habsent e₀ hr
    · simp [hpage]
  · cases heq.symm.trans hupdate
    refine ⟨(h.write hwf hv ht _).congr fun page e => ?_, treeWF_leaf hwf hv ht _⟩
    have hunused : ((s.mem t (pageIndex 1 v)).setFlags flags).isUnused = false :=
      PageTableEntry.isUnused_ofAddr hpres
    by_cases hpage : page = v.page
    · subst hpage
      have honly : ∀ e₀, R v.page e₀ ↔ e₀ = s.mem t (pageIndex 1 v) := by
        intro e₀
        rw [← h v hv e₀, hleaf, Option.some.injEq, eq_comm]
      simp [hunused, honly]
    · simp [hpage]

theorem setFlags_setFlags (e : PageTableEntry) (flags : PageTableFlags) :
    (e.setFlags flags).setFlags flags = e.setFlags flags := by
  rw [PageTableEntry.setFlags, PageTableEntry.setFlags,
    PageTableEntry.addr_ofAddr _ (PageTableEntry.addr_aligned e)]

/-- The loop of `remap_stack`: the pages of the addresses `as` get other flags. -/
theorem Leaves.reflag {as : List Nat} (hpres : flags.contains .PRESENT = true)
    (hout : ∀ v : VirtAddr, v.addr ∈ as → pageIndex 4 v ≠ RECURSIVE) :
    ∀ {s : PagingState σ} {R : Nat → PageTableEntry → Prop}, Leaves root s.mem R →
      TreeWF pt root s.mem →
      forEach (fun page s => show Panics _ from do
        let v ← VirtAddr.new page
        pt.updateFlags v flags s) as s = .ok (.ok (), s') →
      Leaves root s'.mem (fun page e => ∃ e₀, R page e₀
          ∧ e = if page ∈ as.map (· / PAGE_SIZE) then e₀.setFlags flags else e₀)
        ∧ TreeWF pt root s'.mem := by
  induction as with
  | nil =>
      intro s R h hwf hloop
      cases hloop
      exact ⟨h.congr fun page e => by simp, hwf⟩
  | cons a as ih =>
      intro s R h hwf hloop
      obtain ⟨_, s₁, hfirst, hrest⟩ := andThen_eq_ok hloop
      obtain ⟨v, hv, hupdate⟩ := bind_eq_ok.mp hfirst
      have hva := VirtAddr.new_eq_ok.mp hv
      obtain ⟨h₁, hwf₁⟩ := h.updateFlags hwf (hout v (by rw [hva]; exact List.mem_cons_self))
        hpres hupdate
      obtain ⟨h₂, hwf₂⟩ := ih (fun w hw => hout w (List.mem_cons_of_mem a hw)) h₁ hwf₁ hrest
      refine ⟨h₂.congr fun page e => ?_, hwf₂⟩
      have hpage : v.page = a / PAGE_SIZE := by rw [VirtAddr.page, hva]; rfl
      have htwice : ∀ e₀ : PageTableEntry,
          (if page ∈ as.map (· / PAGE_SIZE) then
            (if page = a / PAGE_SIZE then e₀.setFlags flags else e₀).setFlags flags
          else if page = a / PAGE_SIZE then e₀.setFlags flags else e₀)
          = if page = a / PAGE_SIZE ∨ page ∈ as.map (· / PAGE_SIZE) then e₀.setFlags flags
            else e₀ := by
        intro e₀
        by_cases hhere : page = a / PAGE_SIZE
        · rw [if_pos hhere, if_pos (Or.inl hhere), setFlags_setFlags, ite_self]
        · simp [hhere]
      simp only [List.map_cons, List.mem_cons, hpage, ← htwice]
      constructor
      · rintro ⟨e₁, ⟨e₀, hr, rfl⟩, rfl⟩
        exact ⟨e₀, hr, rfl⟩
      · rintro ⟨e₀, hr, rfl⟩
        exact ⟨_, ⟨e₀, hr, rfl⟩, rfl⟩

end Changes

/-! ## What boot asks for -/

/-- Pages with one set of flags: page, address of the frame, flags. -/
def flagged (flags : PageTableFlags) (ms : List (Nat × Nat)) :
    List (Nat × Nat × PageTableFlags) :=
  ms.map fun m => (m.2 / PAGE_SIZE, m.1, flags)

/-- The leaf entry that these stand for. -/
def leaf (t : Nat × Nat × PageTableFlags) : Nat × PageTableEntry := (t.1, entryAt t.2.1 t.2.2)

theorem map_leaf_flagged (flags : PageTableFlags) (ms : List (Nat × Nat)) :
    (flagged flags ms).map leaf = leavesOf flags ms := by
  rw [flagged, leavesOf, List.map_map]
  rfl

/-- The kernel: each section has its own flags, and what the region holds behind
    the sections is read-only. -/
def kernelPart (b : BootInfo) (region : MemoryRegionInfo) : List (Nat × Nat × PageTableFlags) :=
  let i := b.image
  flagged (.union flagsR .GLOBAL) (b.sectionPages i.limineReqsStart i.textStart)
    ++ (flagged (.union flagsRx .GLOBAL) (b.sectionPages i.textStart i.rodataStart)
      ++ (flagged (.union flagsR .GLOBAL) (b.sectionPages i.rodataStart i.dataStart)
        ++ (flagged (.union flagsRw .GLOBAL) (b.sectionPages i.dataStart i.elfEnd)
          ++ flagged (.union flagsR .GLOBAL) (pagesFrom
            (i.elfEnd - b.kernelAddr.virtualBase + b.kernelAddr.physicalBase) i.elfEnd
            (sizeInPages (region.length - (i.elfEnd - i.limineReqsStart)))))))

/-- The regions that `map_misc` maps. -/
def miscPart (b : BootInfo) : List (Nat × Nat × PageTableFlags) := flagged flagsRwx b.miscPages

def heapPart (b : BootInfo) : List (Nat × Nat × PageTableFlags) := flagged flagsRw b.heapMappings

/-- The pages that `remap_stack` makes writable. -/
def stackPages (b : BootInfo) : List Nat :=
  (stepBy (b.stackTop - STACK_SIZE) b.stackTop).map (· / PAGE_SIZE)

/-- **THE ADDRESS SPACE AT `load`.**  A page of the heap; or a page of the kernel or
    of the memory map that is not the guard page, with other flags if it
    belongs to the stack. -/
def AtLoad (b : BootInfo) (kSect : MemoryRegionInfo) (page : Nat) (m : Mapping) : Prop :=
  (page, m.frame.addr, m.flags) ∈ heapPart b
    ∨ page ≠ b.stackTop / PAGE_SIZE
      ∧ ∃ flags, (page, m.frame.addr, flags) ∈ kernelPart b kSect ++ miscPart b
        ∧ m.flags = if page ∈ stackPages b then flagsRw else flags

variable {b : BootInfo} {kSect : MemoryRegionInfo}

theorem map_leaf_kernelPart : (kernelPart b kSect).map leaf = kernelLeaves b kSect := by
  simp only [kernelPart, kernelLeaves, List.map_append, map_leaf_flagged]

theorem mem_flagged {flags : PageTableFlags} {ms : List (Nat × Nat)}
    {t : Nat × Nat × PageTableFlags} :
    t ∈ flagged flags ms ↔ t.2.2 = flags ∧ ∃ m ∈ ms, m.2 / PAGE_SIZE = t.1 ∧ m.1 = t.2.1 := by
  obtain ⟨page, frame, flags'⟩ := t
  simp only [flagged, List.mem_map, Prod.mk.injEq]
  constructor
  · rintro ⟨m, hm, hpage, hframe, hflags⟩
    exact ⟨hflags.symm, m, hm, hpage, hframe⟩
  · rintro ⟨hflags, m, hm, hpage, hframe⟩
    exact ⟨m, hm, hpage, hframe, hflags.symm⟩

/-- A page of the kernel has the flags of one of the five parts. -/
theorem mem_kernelPart {t : Nat × Nat × PageTableFlags} (h : t ∈ kernelPart b kSect) :
    (t.2.2 = .union flagsR .GLOBAL ∨ t.2.2 = .union flagsRx .GLOBAL
        ∨ t.2.2 = .union flagsRw .GLOBAL)
      ∧ ∃ m ∈ b.kernelPagesIn kSect, m.2 / PAGE_SIZE = t.1 ∧ m.1 = t.2.1 := by
  simp only [kernelPart, List.mem_append, mem_flagged] at h
  simp only [BootInfo.kernelPagesIn, List.mem_append]
  rcases h with ⟨hf, m, hm, ht⟩ | ⟨hf, m, hm, ht⟩ | ⟨hf, m, hm, ht⟩ | ⟨hf, m, hm, ht⟩
    | ⟨hf, m, hm, ht⟩
  · exact ⟨Or.inl hf, m, Or.inl hm, ht⟩
  · exact ⟨Or.inr (Or.inl hf), m, Or.inr (Or.inl hm), ht⟩
  · exact ⟨Or.inl hf, m, Or.inr (Or.inr (Or.inl hm)), ht⟩
  · exact ⟨Or.inr (Or.inr hf), m, Or.inr (Or.inr (Or.inr (Or.inl hm))), ht⟩
  · exact ⟨Or.inl hf, m, Or.inr (Or.inr (Or.inr (Or.inr hm))), ht⟩

/-- Every page of the image belongs to one of them. -/
theorem kernelPart_of_mem {m : Nat × Nat} (h : m ∈ b.kernelPagesIn kSect) :
    ∃ flags, (m.2 / PAGE_SIZE, m.1, flags) ∈ kernelPart b kSect := by
  simp only [kernelPart, List.mem_append, mem_flagged]
  simp only [BootInfo.kernelPagesIn, List.mem_append] at h
  rcases h with h | h | h | h | h
  · exact ⟨_, Or.inl ⟨rfl, m, h, rfl, rfl⟩⟩
  · exact ⟨_, Or.inr (Or.inl ⟨rfl, m, h, rfl, rfl⟩)⟩
  · exact ⟨_, Or.inr (Or.inr (Or.inl ⟨rfl, m, h, rfl, rfl⟩))⟩
  · exact ⟨_, Or.inr (Or.inr (Or.inr (Or.inl ⟨rfl, m, h, rfl, rfl⟩)))⟩
  · exact ⟨_, Or.inr (Or.inr (Or.inr (Or.inr ⟨rfl, m, h, rfl, rfl⟩)))⟩

/-- A frame and flags that can stand in a leaf entry. -/
structure Sound (t : Nat × Nat × PageTableFlags) : Prop where
  frame : t.2.1 < 2 ^ 52
  aligned : t.2.1 % PAGE_SIZE = 0
  present : t.2.2.contains .PRESENT = true

theorem flagged_sound {flags : PageTableFlags} {ms : List (Nat × Nat)}
    (hpres : flags.contains .PRESENT = true) (hms : ∀ m ∈ ms, Mappable m) :
    ∀ t ∈ flagged flags ms, Sound t := by
  intro t ht
  obtain ⟨hflags, m, hm, -, hframe⟩ := mem_flagged.mp ht
  have hmap := hms m hm
  exact ⟨hframe ▸ hmap.phys, hframe ▸ hmap.aligned, hflags ▸ hpres⟩

theorem kernelPart_sound (hms : ∀ m ∈ b.kernelPagesIn kSect, Mappable m) :
    ∀ t ∈ kernelPart b kSect, Sound t := by
  intro t ht
  obtain ⟨hflags, m, hm, -, hframe⟩ := mem_kernelPart ht
  have hmap := hms m hm
  refine ⟨hframe ▸ hmap.phys, hframe ▸ hmap.aligned, ?_⟩
  rcases hflags with hf | hf | hf <;> rw [hf] <;> decide

theorem Sound.used {t : Nat × Nat × PageTableFlags} (h : Sound t) :
    (leaf t).2.isUnused = false :=
  PageTableEntry.isUnused_ofAddr (a := ⟨t.2.1, h.frame⟩) h.present

theorem used_of_sound {ts : List (Nat × Nat × PageTableFlags)} (h : ∀ t ∈ ts, Sound t) :
    ∀ w ∈ ts.map leaf, w.2.isUnused = false := by
  intro w hw
  obtain ⟨t, ht, rfl⟩ := List.mem_map.mp hw
  exact (h t ht).used

/-- The mapping that a sound triple stands for. -/
def Sound.mapping {t : Nat × Nat × PageTableFlags} (h : Sound t) : Mapping :=
  ⟨⟨t.2.1, h.frame⟩, t.2.2, h.aligned, h.present⟩

/-- The leaf entries of a list are those of its mappings. -/
theorem mem_map_leaf {ts : List (Nat × Nat × PageTableFlags)} (h : ∀ t ∈ ts, Sound t)
    {page : Nat} {e : PageTableEntry} :
    (page, e) ∈ ts.map leaf
      ↔ ∃ m : Mapping, (page, m.frame.addr, m.flags) ∈ ts ∧ e = m.entry := by
  constructor
  · intro hmem
    obtain ⟨t, ht, heq⟩ := List.mem_map.mp hmem
    obtain ⟨rfl, rfl⟩ := Prod.mk.inj heq
    exact ⟨(h t ht).mapping, ht, rfl⟩
  · rintro ⟨m, hmem, rfl⟩
    exact List.mem_map.mpr ⟨_, hmem, rfl⟩

/-! ## Boot, step by step -/

section Steps

variable {pt : RecursivePageTable} {root : PhysAddr}
  {s s' s₀ s₁ s₂ : PagingState LinearFrameAllocator} {touched : List Nat}
  {On : Nat → Nat → Prop} {R : Nat → PageTableEntry → Prop}

/-- `map_kernel` got through every page of the image. -/
theorem mapKernel_mappable (hb : BootState pt root s touched On)
    (h : mapKernel b pt kSect s = .ok (.ok (), s')) :
    ∀ m ∈ b.kernelPagesIn kSect, Mappable m := by
  obtain ⟨_, s₁, h₁, h⟩ := andThen_eq_ok h
  obtain ⟨_, s₂, h₂, h⟩ := andThen_eq_ok h
  obtain ⟨_, s₃, h₃, h⟩ := andThen_eq_ok h
  obtain ⟨_, s₄, h₄, h⟩ := andThen_eq_ok h
  have hb₁ := (mapPages_boot (by decide) hb (mapKernelSection_loop h₁)).boot
  have hb₂ := (mapPages_boot (by decide) hb₁ (mapKernelSection_loop h₂)).boot
  have hb₃ := (mapPages_boot (by decide) hb₂ (mapKernelSection_loop h₃)).boot
  have hb₄ := (mapPages_boot (by decide) hb₃ (mapKernelSection_loop h₄)).boot
  have hm₁ := (mapPages_laid hb.wf (hb.fresh _) (mapKernelSection_loop h₁)).2.2
  have hm₂ := (mapPages_laid hb₁.wf (hb₁.fresh _) (mapKernelSection_loop h₂)).2.2
  have hm₃ := (mapPages_laid hb₂.wf (hb₂.fresh _) (mapKernelSection_loop h₃)).2.2
  have hm₄ := (mapPages_laid hb₃.wf (hb₃.fresh _) (mapKernelSection_loop h₄)).2.2
  have hm₅ := (mapPages_laid hb₄.wf (hb₄.fresh _) (mapKernelRest_loop h)).2.2
  simp only [BootInfo.kernelPagesIn, List.mem_append]
  rintro m (hm | hm | hm | hm | hm)
  exacts [hm₁ m hm, hm₂ m hm, hm₃ m hm, hm₄ m hm, hm₅ m hm]

/-- The leaf entries behind `map_kernel` and `map_misc`. -/
theorem early_leaves (hoff : pt.internalOffset = b.hhdm.offset.addr)
    (hb : BootState pt root s₀ [] fun _ _ => False)
    (h₁ : mapKernel b pt kSect s₀ = .ok (.ok (), s₁))
    (h₂ : mapMisc b pt s₁ = .ok (.ok (), s₂)) :
    (∀ t ∈ kernelPart b kSect ++ miscPart b, Sound t)
      ∧ Leaves root s₂.mem fun page e =>
        (page, e) ∈ (kernelPart b kSect ++ miscPart b).map leaf := by
  have hb₁ := (mapKernel_placed hb h₁).boot
  obtain ⟨hlaid₂, -, hmappable⟩ := mapPages_laid hb₁.wf (hb₁.fresh _) (mapRegions_loop hoff h₂)
  have hkernel := kernelPart_sound (mapKernel_mappable hb h₁)
  have hmisc := flagged_sound flagsRwx_present hmappable
  rw [← map_leaf_flagged] at hlaid₂
  have hlaid₁ := mapKernel_laid hb h₁
  rw [← map_leaf_kernelPart] at hlaid₁
  have hempty : Leaves root s₀.mem fun _ _ => False := by
    intro v hv e
    refine ⟨fun he => ?_, False.elim⟩
    exact (hb.leaf v hv e.addr.addr).mp ⟨e, he, rfl⟩
  refine ⟨fun t ht => ?_, ?_⟩
  · rcases List.mem_append.mp ht with ht | ht
    · exact hkernel t ht
    · exact hmisc t ht
  · refine ((hempty.laid hlaid₁ (used_of_sound hkernel)).laid hlaid₂
      (used_of_sound hmisc)).congr fun page e => ?_
    rw [List.map_append, List.mem_append, false_or]
    rfl

/-- The leaf entries behind `remap_stack`: the guard page has none, and those of
    the stack are writable. -/
theorem remapStack_leaves {entry : VirtAddr} (hentry : entry.addr = b.entryStackPointer)
    (hstack : b.StackOutside) (hwf : TreeWF pt root s.mem) (hleaves : Leaves root s.mem R)
    (h : remapStack pt entry s = .ok (.ok (), s')) :
    Leaves root s'.mem fun page e => ∃ e₀, (page ≠ b.stackTop / PAGE_SIZE ∧ R page e₀)
      ∧ e = if page ∈ stackPages b then e₀.setFlags flagsRw else e₀ := by
  obtain ⟨stackTop, htop, h⟩ := bind_eq_ok.mp h
  obtain ⟨stackBottom, hbottom, h⟩ := bind_eq_ok.mp h
  obtain ⟨_, s₁, hunmap, hloop⟩ := andThen_eq_ok h
  have htop' : stackTop.addr = b.stackTop := by
    rw [VirtAddr.add_eq_ok.mp htop, hentry, BootInfo.stackTop]
  have hloop' := paging_eq_ok hloop
  rw [virtSub_eq_ok hbottom, htop'] at hloop'
  obtain ⟨hleaves₁, hwf₁⟩ := hleaves.unmap hwf (hstack stackTop (Or.inl htop'))
    (paging_eq_ok hunmap)
  rw [VirtAddr.page, htop'] at hleaves₁
  exact (hleaves₁.reflag flagsRw_present (fun v hv => hstack v (Or.inr hv)) hwf₁ hloop').1

/-- **`init_paging`, STEP BY STEP.** -/
theorem initPaging_steps {entry : VirtAddr}
    {maps : BitmapFrameAllocator × VirtualMemoryAllocator}
    (h : initPaging b entry s = .ok (.ok (pt, maps), s')) :
    ∃ kSect s₀ s₁ s₂ s₃, kernelRegion b = some kSect
      ∧ RecursivePageTable.new b.hhdm s = .ok (pt, s₀)
      ∧ mapKernel b pt kSect s₀ = .ok (.ok (), s₁)
      ∧ mapMisc b pt s₁ = .ok (.ok (), s₂)
      ∧ remapStack pt entry s₂ = .ok (.ok (), s₃)
      ∧ makeBitmaps b pt b.sizeBytes s₃ = .ok (.ok maps, s') := by
  obtain ⟨⟨pt', s₀⟩, hnew, h⟩ := bind_eq_ok.mp h
  dsimp only at h
  cases hkernel : kernelRegion b with
  | none =>
      rw [hkernel] at h
      cases h
  | some kSect =>
      rw [hkernel] at h
      obtain ⟨_, s₁, h₁, h⟩ := andThen_eq_ok h
      obtain ⟨_, s₂, h₂, h⟩ := andThen_eq_ok h
      obtain ⟨_, s₃, h₃, h⟩ := andThen_eq_ok h
      cases hhighest : highestValidRegion b with
      | none =>
          rw [hhighest] at h
          cases h
      | some highest =>
          rw [hhighest] at h
          obtain ⟨maps', s₄, h₄, h⟩ := andThen_eq_ok h
          cases h
          rw [← BootInfo.sizeBytes_eq hhighest] at h₄
          exact ⟨kSect, s₀, s₁, s₂, s₃, rfl, hnew, h₁, h₂, h₃, h₄⟩

/-- **`init_memory` UP TO `load`, STEP BY STEP.** -/
theorem prepareMemory_steps {mem : PhysMem} {c : KernelPagingController} {heapVirt : VirtAddr}
    (h : prepareMemory b mem = .ok (.ok (c, heapVirt))) :
    ∃ region entry heapPhys s₀ s₁ s₂ maps bits, allocatorRegion b = some region
      ∧ entry.addr = b.entryStackPointer ∧ heapPhys.addr = b.allocatorBase
      ∧ heapVirt.addr = b.allocatorBase + c.recPageTable.internalOffset
      ∧ s₀.alloc.cursor.addr = b.heapEnd
      ∧ initPaging b entry s₀ = .ok (.ok (c.recPageTable, maps), s₁)
      ∧ c.recPageTable.mapContiguous heapPages heapPhys heapVirt flagsRw s₁
        = .ok (.ok (), s₂)
      ∧ maps.1.bits.flagRange (b.allocatorBase / PAGE_SIZE) (s₂.alloc.cursor.addr / PAGE_SIZE)
        true = .ok (.ok (), bits)
      ∧ c.frameAllocator = ⟨bits⟩ ∧ c.virtMemAllocator = maps.2 ∧ c.mem = s₂.mem := by
  rw [prepareMemory] at h
  cases hregion : allocatorRegion b with
  | none =>
      rw [hregion] at h
      cases h
  | some region =>
      rw [hregion] at h
      obtain ⟨⟨answer, s⟩, h, hanswer⟩ := bind_eq_ok.mp h
      cases hanswer
      have hbase := BootInfo.allocatorBase_eq hregion
      rw [prepareIn] at h
      obtain ⟨physBase, hphysBase, h⟩ := bind_eq_ok.mp h
      obtain ⟨base, hvbase, h⟩ := bind_eq_ok.mp h
      obtain ⟨virtBase, hvirtBase, h⟩ := bind_eq_ok.mp h
      obtain ⟨start, hstart, h⟩ := bind_eq_ok.mp h
      obtain ⟨heapPhys, s₀, hheap, h⟩ := andThen_eq_ok h
      obtain ⟨entry, hentry, h⟩ := bind_eq_ok.mp h
      obtain ⟨⟨pt, maps⟩, s₁, hinit, h⟩ := andThen_eq_ok h
      dsimp only at h
      obtain ⟨heapBase, hheapBase, h⟩ := bind_eq_ok.mp h
      obtain ⟨heapVirt', hheapVirt, h⟩ := bind_eq_ok.mp h
      obtain ⟨_, s₂, hmap, h⟩ := andThen_eq_ok h
      obtain ⟨⟨answer, bits⟩, hflag, h⟩ := bind_eq_ok.mp h
      cases answer with
      | error e => cases h
      | ok _ =>
          cases h
          obtain ⟨hheap, -⟩ := onAllocator_eq_ok hheap
          obtain ⟨hphys, hcur₀⟩ := LinearFrameAllocator.allocContiguous_eq_ok.mp hheap
          cases hphys
          have hstart' : start.addr = b.allocatorBase := by
            rw [PhysAddr.new_eq_ok.mp hstart, VirtAddr.add_eq_ok.mp hvirtBase,
              VirtAddr.new_eq_ok.mp hvbase, Nat.add_sub_cancel, hbase]
          refine ⟨region, entry, start, s₀, s₁, s, maps, bits, rfl, VirtAddr.new_eq_ok.mp hentry,
            hstart', ?_, ?_, hinit, paging_eq_ok hmap, ?_, rfl, rfl, rfl⟩
          · rw [VirtAddr.add_eq_ok.mp hheapVirt, VirtAddr.new_eq_ok.mp hheapBase, hstart']
          · rw [hcur₀, BootInfo.heapEnd, ← hstart']
            rfl
          · rw [hbase, ← PhysAddr.new_eq_ok.mp hphysBase]
            exact hflag

/-- The leaf entries behind `init_paging`. -/
theorem initPaging_leaves {entry : VirtAddr} (hentry : entry.addr = b.entryStackPointer)
    (hstack : b.StackOutside) {maps : BitmapFrameAllocator × VirtualMemoryAllocator}
    (h : initPaging b entry s = .ok (.ok (pt, maps), s')) :
    ∃ kSect root bitmaps, kernelRegion b = some kSect
      ∧ Paged b root s s' bitmaps pt maps
      ∧ (∀ t ∈ kernelPart b kSect ++ miscPart b, Sound t)
      ∧ Leaves root s'.mem fun page e => ∃ e₀, (page ≠ b.stackTop / PAGE_SIZE
          ∧ (page, e₀) ∈ (kernelPart b kSect ++ miscPart b).map leaf)
        ∧ e = if page ∈ stackPages b then e₀.setFlags flagsRw else e₀ := by
  obtain ⟨root, bitmaps, hpaged⟩ := initPaging_cases hentry hstack h
  obtain ⟨kSect, s₀, s₁, s₂, s₃, hkernel, hnew, h₁, h₂, h₃, h₄⟩ := initPaging_steps h
  obtain ⟨root', hb₀, hoff, -, -, -⟩ := new_boot hnew
  -- there is one root: the pointer to the level-4 table determines it
  have hroot : root' = root := by
    have hlvl4 := hb₀.wf.lvl4
    have hlvl4' := hpaged.boot.wf.lvl4
    exact PhysAddr.ext (by omega)
  subst hroot
  obtain ⟨hsound, hleaves⟩ := early_leaves hoff hb₀ h₁ h₂
  have hleaves₃ := remapStack_leaves hentry hstack
    (earlyPages_placed hkernel hoff hb₀ h₁ h₂).boot.wf hleaves h₃
  rw [← (makeBitmaps_cases h₄).1] at hleaves₃
  exact ⟨kSect, root', bitmaps, hkernel, hpaged, hsound, hleaves₃⟩

/-- What `AtLoad` says, as leaf entries. -/
theorem atLoad_entry (hsound : ∀ t ∈ kernelPart b kSect ++ miscPart b, Sound t)
    (hheap : ∀ t ∈ heapPart b, Sound t) (page : Nat) (e : PageTableEntry) :
    ((∃ e₀, (page ≠ b.stackTop / PAGE_SIZE
          ∧ (page, e₀) ∈ (kernelPart b kSect ++ miscPart b).map leaf)
        ∧ e = if page ∈ stackPages b then e₀.setFlags flagsRw else e₀)
      ∨ (page, e) ∈ (heapPart b).map leaf)
      ↔ ∃ m, AtLoad b kSect page m ∧ e = m.entry := by
  have hreflag : ∀ m : Mapping, m.entry.setFlags flagsRw
      = (⟨m.frame, flagsRw, m.aligned, flagsRw_present⟩ : Mapping).entry := by
    intro m
    rw [PageTableEntry.setFlags, m.addr_entry]
    rfl
  rw [mem_map_leaf hheap]
  simp only [mem_map_leaf hsound]
  constructor
  · rintro (⟨e₀, ⟨hguard, m, hm, rfl⟩, he⟩ | ⟨m, hm, he⟩)
    · by_cases hstack : page ∈ stackPages b
      · rw [if_pos hstack, hreflag m] at he
        exact ⟨⟨m.frame, flagsRw, m.aligned, flagsRw_present⟩,
          Or.inr ⟨hguard, m.flags, hm, by rw [if_pos hstack]⟩, he⟩
      · rw [if_neg hstack] at he
        exact ⟨m, Or.inr ⟨hguard, m.flags, hm, by rw [if_neg hstack]⟩, he⟩
    · exact ⟨m, Or.inl hm, he⟩
  · rintro ⟨m, hm | ⟨hguard, flags, hm, hflags⟩, rfl⟩
    · exact Or.inr ⟨m, hm, rfl⟩
    · refine Or.inl ⟨_, ⟨hguard, ⟨m.frame, flags, m.aligned, (hsound _ hm).present⟩, hm, rfl⟩, ?_⟩
      by_cases hstack : page ∈ stackPages b
      · rw [if_pos hstack] at hflags ⊢
        rw [hreflag, Mapping.entry, Mapping.entry, hflags]
      · rw [if_neg hstack] at hflags ⊢
        rw [Mapping.entry, Mapping.entry, hflags]

/-- The page table of a controller holds the address space that boot asks for. -/
structure Space (b : BootInfo) (kSect : MemoryRegionInfo) (root : PhysAddr)
    (c : KernelPagingController) : Prop where
  kernel : kernelRegion b = some kSect
  wf : TreeWF c.recPageTable root c.mem
  early : ∀ t ∈ kernelPart b kSect ++ miscPart b, Sound t
  heap : ∀ m ∈ b.heapMappings, Mappable m
  leaves : Leaves root c.mem fun page e => ∃ m, AtLoad b kSect page m ∧ e = m.entry

/-- **THE LEAF ENTRIES AT `load`.** -/
theorem prepareMemory_space {mem : PhysMem} {c : KernelPagingController} {heapVirt : VirtAddr}
    (hstack : b.StackOutside) (h : prepareMemory b mem = .ok (.ok (c, heapVirt))) :
    (∃ kSect root, Space b kSect root c)
      ∧ heapVirt.addr = b.allocatorBase + b.hhdm.offset.addr := by
  obtain ⟨region, entry, heapPhys, s₀, s₁, s₂, maps, bits, -, hentry, hphys, hvirt, -, hinit,
    hmap, -, -, -, hmem⟩ := prepareMemory_steps h
  obtain ⟨kSect, root, bitmaps, hkernel, hpaged, hsound, hleaves⟩ :=
    initPaging_leaves hentry hstack hinit
  have hloop := mapContiguous_loop hmap
  rw [hpaged.offset] at hvirt
  rw [hphys, hvirt] at hloop
  obtain ⟨hlaid, hkept, hmappable⟩ := mapPages_laid hpaged.boot.wf (hpaged.boot.fresh _) hloop
  have hheap : ∀ t ∈ heapPart b, Sound t := flagged_sound flagsRw_present hmappable
  rw [← map_leaf_flagged] at hlaid
  refine ⟨⟨kSect, root, hkernel, ?_, hsound, hmappable, ?_⟩, hvirt⟩
  · rw [hmem]
    exact hkept.wf
  · rw [hmem]
    exact (hleaves.laid hlaid (used_of_sound hheap)).congr (atLoad_entry hsound hheap)

end Steps

end KermolBootMap
