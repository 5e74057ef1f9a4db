import Kermol.BootSpaceProofs
import Kermol.BlockTablesProofs

/-! # When boot succeeds

    `init_memory` maps the kernel, the loader's regions and the heap, takes the
    stack out again and makes two bitmaps; each of these can stop it.  For every
    boot information there is a list of conditions (`Boots`), on the memory map,
    the image and the stack pointer alone, such that `init_memory` returns `Ok`
    exactly if they hold (`initMemory_ok_iff`).

    The results before say what each step asks for: a loop of mappings
    (`mapPages_ok_iff`), `map_kernel`, `map_misc`, `remap_stack`, the bitmaps and
    `init_paging`. -/

namespace KermolBootReached

open RustEffect X86Paging KermolFrameAllocator KermolPageTable KermolPageTree
open KermolMapStep KermolPageTableRun KermolBootTables KermolContiguous KermolBlockTables
open KermolFrameBitmap KermolController KermolInitMemory KermolPrepared KermolBootMap
open KermolBitmap KermolAddressSpace RadixTree

/-! ## Loops of mappings -/

/-- What a loop of mappings asks for, where `On` says what is mapped already. -/
structure Asked (On : Nat → Nat → Prop) (ms : List (Nat × Nat)) : Prop where
  mappable : ∀ m ∈ ms, Mappable m
  distinct : (ms.map fun m => m.2 / PAGE_SIZE).Nodup
  absent : ∀ m ∈ ms, ∀ f, ¬ On (m.2 / PAGE_SIZE) f

section Loops

variable {pt : RecursivePageTable} {root : PhysAddr}
  {s s' : PagingState LinearFrameAllocator} {touched : List Nat} {On : Nat → Nat → Prop}
  {flags : PageTableFlags} {ms ms₁ ms₂ : List (Nat × Nat)}

namespace Asked

theorem plan (h : Asked On ms)
    (hroom : Room pt.internalOffset (s.alloc.cursor.addr + 3 * ms.length * PAGE_SIZE)) :
    Plan pt On s ms :=
  ⟨h.mappable, h.distinct, h.absent, hroom⟩

/-- One list of mappings behind another. -/
theorem append_iff : Asked On (ms₁ ++ ms₂)
    ↔ Asked On ms₁ ∧ Asked (fun w f => On w f ∨ OnList ms₁ w f) ms₂ := by
  constructor
  · intro h
    have hd := h.distinct
    rw [List.map_append] at hd
    obtain ⟨hd₁, hd₂, hcross⟩ := List.nodup_append.mp hd
    refine ⟨⟨fun m hm => h.mappable m (List.mem_append_left _ hm), hd₁,
      fun m hm => h.absent m (List.mem_append_left _ hm)⟩,
      ⟨fun m hm => h.mappable m (List.mem_append_right _ hm), hd₂, ?_⟩⟩
    rintro m hm f (hon | ⟨m', hm', hpage, -⟩)
    · exact h.absent m (List.mem_append_right _ hm) f hon
    · exact hcross _ (List.mem_map_of_mem hm') _ (List.mem_map_of_mem hm) hpage
  · rintro ⟨h₁, h₂⟩
    refine ⟨fun m hm => ?_, ?_, fun m hm f hon => ?_⟩
    · rcases List.mem_append.mp hm with hm | hm
      · exact h₁.mappable m hm
      · exact h₂.mappable m hm
    · rw [List.map_append]
      refine List.nodup_append.mpr ⟨h₁.distinct, h₂.distinct, ?_⟩
      rintro p hp q hq rfl
      obtain ⟨m₁, hm₁, rfl⟩ := List.mem_map.mp hp
      obtain ⟨m₂, hm₂, hpage⟩ := List.mem_map.mp hq
      exact h₂.absent m₂ hm₂ m₁.1 (Or.inr ⟨m₁, hm₁, hpage.symm, rfl⟩)
    · rcases List.mem_append.mp hm with hm | hm
      · exact h₁.absent m hm f hon
      · exact h₂.absent m hm f (Or.inl hon)

end Asked

/-- A loop that returned `Ok` found what it asks for. -/
theorem mapPages_asked (hpres : flags.contains .PRESENT = true) :
    ∀ {s : PagingState LinearFrameAllocator} {touched : List Nat} {On : Nat → Nat → Prop},
      BootState pt root s touched On → forEach (mapPage pt flags) ms s = .ok (.ok (), s') →
      Asked On ms := by
  induction ms with
  | nil => exact fun _ _ => ⟨nofun, List.nodup_nil, nofun⟩
  | cons m ms ih =>
      intro s touched On hb h
      rw [forEach_cons] at h
      obtain ⟨_, s₁, h₁, h₂⟩ := andThen_eq_ok h
      have hone : forEach (mapPage pt flags) [m] s = .ok (.ok (), s₁) := by
        rw [forEach_singleton, h₁]
      obtain ⟨hlaid, -, hmappable⟩ := mapPages_laid hb.wf (hb.fresh _) hone
      have hfirst : Asked On [m] := by
        refine ⟨hmappable, List.nodup_singleton _, fun m' hm' f hon => ?_⟩
        obtain ⟨v, hvaddr, hv⟩ := (hmappable m' hm').virt
        rw [← hvaddr] at hon
        obtain ⟨e, he, -⟩ := (hb.leaf v hv f).mpr hon
        cases (hlaid.unmapped v hv ⟨m', hm', by rw [← hvaddr]; rfl⟩).symm.trans he
      exact Asked.append_iff.mpr ⟨hfirst, ih (mapPages_boot hpres hb hone).boot h₂⟩

/-- **WHEN A LOOP OF MAPPINGS RETURNS `Ok`.** -/
theorem mapPages_ok_iff (hpres : flags.contains .PRESENT = true)
    (hoff : IsCanonical pt.internalOffset) (hb : BootState pt root s touched On)
    (hroom : Room pt.internalOffset (s.alloc.cursor.addr + 3 * ms.length * PAGE_SIZE)) :
    (∃ s', forEach (mapPage pt flags) ms s = .ok (.ok (), s')) ↔ Asked On ms := by
  constructor
  · rintro ⟨s', h⟩
    exact mapPages_asked hpres hb h
  · intro h
    exact mapPages_total hpres hoff hb (h.plan hroom)

end Loops

/-! ## The kernel and the loader's regions -/

section Early

variable {b : BootInfo} {kSect : MemoryRegionInfo} {pt : RecursivePageTable} {root : PhysAddr}
  {s s' : PagingState LinearFrameAllocator} {touched : List Nat} {On : Nat → Nat → Prop}
  {flags : PageTableFlags}

theorem stepBy_head {lo hi : Nat} (h : lo < hi) : lo ∈ stepBy lo hi := by
  refine List.mem_map.mpr ⟨0, List.mem_range.mpr ?_, by simp⟩
  rw [PAGE_SIZE]
  omega

/-- A section that is not empty starts in the kernel's memory. -/
theorem mapKernelSection_base {lo hi : Nat} (hlt : lo < hi)
    (h : mapKernelSection b pt lo hi flags s = .ok (.ok (), s')) :
    b.kernelAddr.virtualBase ≤ lo := by
  rw [mapKernelSection, if_neg hlt.ne] at h
  obtain ⟨t, t', hfirst⟩ := forEach_ok_each (paging_eq_ok h) lo (stepBy_head hlt)
  obtain ⟨p, hp, -⟩ := bind_eq_ok.mp hfirst
  rw [kernelPhys] at hp
  split at hp
  · assumption
  · cases hp

/-- What the end of `map_kernel` asks for. -/
theorem mapKernelRest_image (h : mapKernelRest b pt kSect s = .ok (.ok (), s')) :
    b.kernelAddr.virtualBase ≤ b.image.elfEnd
      ∧ b.image.elfEnd - b.image.limineReqsStart ≤ kSect.length
      ∧ b.image.elfEnd - b.kernelAddr.virtualBase + b.kernelAddr.physicalBase < 2 ^ 52
      ∧ IsCanonical b.image.elfEnd
      ∧ sizeInPages (kSect.length - (b.image.elfEnd - b.image.limineReqsStart)) * PAGE_SIZE
        < 2 ^ 64 := by
  rw [mapKernelRest] at h
  split at h
  · next hlength =>
      obtain ⟨p, hp, h⟩ := bind_eq_ok.mp h
      obtain ⟨v, hv, h⟩ := bind_eq_ok.mp h
      have hphys := PhysAddr.new_eq_ok.mp (kernelPhys_eq_ok hp)
      have hvirt := VirtAddr.new_eq_ok.mp hv
      have hbase : b.kernelAddr.virtualBase ≤ b.image.elfEnd := by
        rw [kernelPhys] at hp
        split at hp
        · assumption
        · cases hp
      have hmap := paging_eq_ok h
      rw [mapContiguous_eq] at hmap
      split at hmap
      · next hsize => exact ⟨hbase, hlength.2, hphys ▸ p.valid, hvirt ▸ v.canonical, hsize⟩
      · cases hmap
  · cases h

/-- **WHAT `map_kernel` ASKS FOR.** -/
theorem mapKernel_asked (hb : BootState pt root s touched On)
    (h : mapKernel b pt kSect s = .ok (.ok (), s')) :
    ImageOk b kSect ∧ Asked On (b.kernelPagesIn kSect) := by
  obtain ⟨_, s₁, h₁, h⟩ := andThen_eq_ok h
  obtain ⟨_, s₂, h₂, h⟩ := andThen_eq_ok h
  obtain ⟨_, s₃, h₃, h⟩ := andThen_eq_ok h
  obtain ⟨_, s₄, h₄, h⟩ := andThen_eq_ok h
  constructor
  · obtain ⟨hend, hlength, hphys, hvirt, hsize⟩ := mapKernelRest_image h
    refine ⟨?_, hlength, hphys, hvirt, hsize⟩
    -- the first section that is not empty starts where the image does
    have hbase₁ := fun hlt => mapKernelSection_base hlt h₁
    have hbase₂ := fun hlt => mapKernelSection_base hlt h₂
    have hbase₃ := fun hlt => mapKernelSection_base hlt h₃
    have hbase₄ := fun hlt => mapKernelSection_base hlt h₄
    have htext := b.image.text
    have hrodata := b.image.rodata
    have hdata := b.image.data
    have helf := b.image.elf
    omega
  · have hp₁ := mapPages_boot (by decide) hb (mapKernelSection_loop h₁)
    have hp₂ := mapPages_boot (by decide) hp₁.boot (mapKernelSection_loop h₂)
    have hp₃ := mapPages_boot (by decide) hp₂.boot (mapKernelSection_loop h₃)
    have hp₄ := mapPages_boot (by decide) hp₃.boot (mapKernelSection_loop h₄)
    refine Asked.append_iff.mpr ⟨mapPages_asked (by decide) hb (mapKernelSection_loop h₁), ?_⟩
    refine Asked.append_iff.mpr
      ⟨mapPages_asked (by decide) hp₁.boot (mapKernelSection_loop h₂), ?_⟩
    refine Asked.append_iff.mpr
      ⟨mapPages_asked (by decide) hp₂.boot (mapKernelSection_loop h₃), ?_⟩
    exact Asked.append_iff.mpr
      ⟨mapPages_asked (by decide) hp₃.boot (mapKernelSection_loop h₄),
        mapPages_asked (by decide) hp₄.boot (mapKernelRest_loop h)⟩

theorem mapRegion_region {r : MemoryRegionInfo}
    (hoff : pt.internalOffset = b.hhdm.offset.addr) (hr : (miscFlags r.type).isSome)
    (h : mapRegion pt r s = .ok (.ok (), s')) : RegionOk b r := by
  obtain ⟨flags, hflags⟩ := Option.isSome_iff_exists.mp hr
  rw [mapRegion, hflags] at h
  obtain ⟨p, hp, h⟩ := bind_eq_ok.mp h
  obtain ⟨v, hv, h⟩ := bind_eq_ok.mp h
  have hphys := PhysAddr.new_eq_ok.mp hp
  have hvirt := VirtAddr.new_eq_ok.mp hv
  rw [hoff] at hvirt
  have hmap := paging_eq_ok h
  rw [mapContiguous_eq] at hmap
  split at hmap
  · next hsize => exact ⟨hphys ▸ p.valid, hvirt ▸ v.canonical, hsize⟩
  · cases hmap

/-- **WHEN `map_kernel` AND `map_misc` RETURN `Ok`.** -/
theorem early_ok_iff (hkernel : kernelRegion b = some kSect)
    (hoff : pt.internalOffset = b.hhdm.offset.addr)
    (hb : BootState pt root s [] fun _ _ => False)
    (hroom : Room b.hhdm.offset.addr
      (s.alloc.cursor.addr + 3 * b.earlyPages.length * PAGE_SIZE)) :
    (∃ s₁ s₂, mapKernel b pt kSect s = .ok (.ok (), s₁) ∧ mapMisc b pt s₁ = .ok (.ok (), s₂))
      ↔ ImageOk b kSect
        ∧ (∀ r ∈ b.rammapEntries, (miscFlags r.type).isSome → RegionOk b r)
        ∧ Asked (fun _ _ => False) b.earlyPages := by
  rw [BootInfo.earlyPages_eq hkernel] at hroom ⊢
  constructor
  · rintro ⟨s₁, s₂, h₁, h₂⟩
    obtain ⟨himage, hasked⟩ := mapKernel_asked hb h₁
    refine ⟨himage, fun r hr hmisc => ?_, Asked.append_iff.mpr ⟨hasked, ?_⟩⟩
    · obtain ⟨t, t', hregion⟩ := forEach_ok_each h₂ r hr
      exact mapRegion_region hoff hmisc hregion
    · exact mapPages_asked flagsRwx_present (mapKernel_placed hb h₁).boot
        (mapRegions_loop hoff h₂)
  · rintro ⟨himage, hregions, hasked⟩
    have hplan := hasked.plan (hoff ▸ hroom)
    obtain ⟨s₁, h₁⟩ := mapKernel_total himage (hoff ▸ b.hhdm.offset.canonical) hb hplan.left
    have hp₁ := mapKernel_placed hb h₁
    obtain ⟨s₂, h₂⟩ := mapRegions_total hoff hregions hp₁.boot (hplan.right hp₁)
    exact ⟨s₁, s₂, h₁, h₂⟩

end Early

/-! ## The stack -/

/-- The stack and its guard page, as `remap_stack` wants them: the guard page is mapped,
    and so is a page of the stack wherever there is a level-1 table for it. -/
structure StackFits (b : BootInfo) : Prop where
  entry : IsCanonical b.entryStackPointer
  top : IsCanonical b.stackTop
  size : STACK_SIZE ≤ b.stackTop
  bottom : IsCanonical (b.stackTop - STACK_SIZE)
  guard : ∃ f, OnList b.earlyPages (b.stackTop / PAGE_SIZE) f
  stack : ∀ a ∈ stepBy (b.stackTop - STACK_SIZE) b.stackTop,
    (∃ f, b.EarlyOn (a / PAGE_SIZE) f) ∨ ∀ m ∈ b.earlyPages, m.2 / 2 ^ 21 ≠ a / 2 ^ 21

section Stack

variable {b : BootInfo} {pt : RecursivePageTable} {root : PhysAddr} {v : VirtAddr}
  {s s' : PagingState LinearFrameAllocator} {touched : List Nat} {On : Nat → Nat → Prop}

theorem mem_stepBy {lo hi a : Nat} (h : a ∈ stepBy lo hi) : lo ≤ a ∧ a < hi := by
  obtain ⟨i, hi', rfl⟩ := List.mem_map.mp h
  have hlt := List.mem_range.mp hi'
  rw [PAGE_SIZE] at hlt ⊢
  omega

/-- There is a level-1 table for the addresses that were mapped, and for their neighbours. -/
theorem hasTable_iff (hb : BootState pt root s touched On) (hv : pageIndex 4 v ≠ RECURSIVE) :
    HasTable root s.mem v ↔ ∃ a ∈ touched, a / 2 ^ 21 = v.addr / 2 ^ 21 := by
  rw [HasTable, Option.ne_none_iff_exists']
  refine (hb.paths (tablePath v) (tablePath_mem hv)).trans ?_
  constructor
  · rintro (hnil | ⟨w, hw, hbelow⟩)
    · cases hnil
    · exact ⟨w.addr, hw, tablePath_eq_iff.mp (hbelow.eq_of_length rfl).symm⟩
  · rintro ⟨a, ha, hblock⟩
    obtain ⟨w, rfl, -⟩ := hb.outside a ha
    have hpath : tablePath w = tablePath v := tablePath_eq_iff.mpr hblock
    exact Or.inr ⟨w, ha, hpath ▸ List.prefix_rfl⟩

theorem unmap_ok_iff (hb : BootState pt root s touched On) (hv : pageIndex 4 v ≠ RECURSIVE) :
    (∃ s', pt.unmap v s = .ok (.ok (), s')) ↔ ∃ f, On v.page f := by
  constructor
  · rintro ⟨s', h⟩
    rcases unmap_cases hv hb.wf with ⟨-, heq⟩ | ⟨t, -, hleaf, -⟩
    · cases heq.symm.trans h
    · exact ⟨_, (hb.leaf v hv _).mp ⟨_, hleaf, rfl⟩⟩
  · rintro ⟨f, hon⟩
    exact unmap_total hb hv hon

/-- `update_flags` fails where a page is missing from its table, and nowhere else. -/
theorem updateFlags_ok_iff (flags : PageTableFlags) (hb : BootState pt root s touched On)
    (hv : pageIndex 4 v ≠ RECURSIVE) :
    (∃ s', pt.updateFlags v flags s = .ok (.ok (), s'))
      ↔ (∃ f, On v.page f) ∨ ∀ a ∈ touched, a / 2 ^ 21 ≠ v.addr / 2 ^ 21 := by
  have htable := hasTable_iff hb hv
  rcases updateFlags_cases flags hv hb.wf with ⟨hnone, heq⟩ | ⟨t, -, hleaf, heq⟩
  · have habsent : ¬ ∃ f, On v.page f := by
      rintro ⟨f, hon⟩
      obtain ⟨e, he, -⟩ := (hb.leaf v hv f).mpr hon
      cases hnone.symm.trans he
    rw [heq, or_iff_right habsent]
    split
    · next hwalk =>
        refine iff_of_true ⟨s, rfl⟩ fun a ha hblock => ?_
        exact htable.mpr ⟨a, ha, hblock⟩ hwalk
    · next hwalk =>
        obtain ⟨a, ha, hblock⟩ := htable.mp hwalk
        refine iff_of_false ?_ fun hall => hall a ha hblock
        rintro ⟨s', h⟩
        cases h
  · exact iff_of_true ⟨_, heq⟩ (Or.inl ⟨_, (hb.leaf v hv _).mp ⟨_, hleaf, rfl⟩⟩)

/-- The loop over the pages of the stack. -/
theorem reflag_ok_iff (hstack : b.StackOutside) (htop : IsCanonical b.stackTop)
    (hbottom : IsCanonical (b.stackTop - STACK_SIZE)) (hsize : STACK_SIZE ≤ b.stackTop)
    (hb : BootState pt root s touched On) :
    (∃ s', forEach (fun page s => show Panics _ from do
        let v ← VirtAddr.new page
        pt.updateFlags v flagsRw s) (stepBy (b.stackTop - STACK_SIZE) b.stackTop) s
      = .ok (.ok (), s'))
      ↔ ∀ a ∈ stepBy (b.stackTop - STACK_SIZE) b.stackTop,
        (∃ f, On (a / PAGE_SIZE) f) ∨ ∀ n ∈ touched, n / 2 ^ 21 ≠ a / 2 ^ 21 := by
  refine forEach_returns_iff (P := fun t => BootState pt root t touched On) ?_ ?_ hb
  · intro page hpage t hbt
    -- the stack is too small to reach across the gap between the halves
    have hcan : IsCanonical page := by
      obtain ⟨hge, hlt⟩ := mem_stepBy hpage
      unfold IsCanonical STACK_SIZE at *
      omega
    have hnew : VirtAddr.new page = .ok ⟨page, hcan⟩ := VirtAddr.new_eq_ok.mpr rfl
    rw [hnew, ok_bind]
    exact updateFlags_ok_iff flagsRw hbt (hstack ⟨page, hcan⟩ (Or.inr hpage))
  · intro page hpage t t' hbt h
    obtain ⟨v, hv, h⟩ := bind_eq_ok.mp h
    have hvaddr := VirtAddr.new_eq_ok.mp hv
    exact (updateFlags_boot hbt (hstack v (Or.inr (hvaddr ▸ hpage))) flagsRw_present h).1

/-- **WHEN `remap_stack` RETURNS `Ok`.** -/
theorem remapStack_ok_iff (hstack : b.StackOutside) {entry : VirtAddr}
    (hentry : entry.addr = b.entryStackPointer)
    (hb : BootState pt root s (b.earlyPages.map Prod.snd) (OnList b.earlyPages)) :
    (∃ s', remapStack pt entry s = .ok (.ok (), s')) ↔ StackFits b := by
  constructor
  · rintro ⟨s', h⟩
    obtain ⟨stackTop, htop, h⟩ := bind_eq_ok.mp h
    obtain ⟨stackBottom, hbottom, h⟩ := bind_eq_ok.mp h
    obtain ⟨_, s₁, hunmap, h⟩ := andThen_eq_ok h
    have htop' : stackTop.addr = b.stackTop := by
      rw [VirtAddr.add_eq_ok.mp htop, hentry, BootInfo.stackTop]
    have hbottom' : stackBottom.addr = b.stackTop - STACK_SIZE := by
      rw [virtSub_eq_ok hbottom, htop']
    have hsize : STACK_SIZE ≤ b.stackTop := by
      rw [VirtAddr.sub] at hbottom
      split at hbottom
      · rwa [← htop']
      · cases hbottom
    have hout := hstack stackTop (Or.inl htop')
    have hguard := (unmap_ok_iff hb hout).mp ⟨s₁, paging_eq_ok hunmap⟩
    rw [VirtAddr.page, htop'] at hguard
    have hb₁ : BootState pt root s₁ (b.earlyPages.map Prod.snd) b.EarlyOn := by
      have hunmapped := (unmap_boot hb hout (paging_eq_ok hunmap)).1
      rw [VirtAddr.page, htop'] at hunmapped
      exact hunmapped
    have hreflag := paging_eq_ok h
    rw [htop', hbottom'] at hreflag
    have hpages := (reflag_ok_iff hstack (htop' ▸ stackTop.canonical)
      (hbottom' ▸ stackBottom.canonical) hsize hb₁).mp ⟨s', hreflag⟩
    refine ⟨hentry ▸ entry.canonical, htop' ▸ stackTop.canonical, hsize,
      hbottom' ▸ stackBottom.canonical, hguard, fun a ha => ?_⟩
    simpa only [List.forall_mem_map] using hpages a ha
  · intro hfits
    have htop : entry.add 16 = .ok ⟨_, hfits.top⟩ :=
      VirtAddr.add_eq_ok.mpr (by rw [hentry]; rfl)
    have hbottom : VirtAddr.sub ⟨_, hfits.top⟩ STACK_SIZE = .ok ⟨_, hfits.bottom⟩ := by
      rw [VirtAddr.sub, if_pos hfits.size]
      exact VirtAddr.new_eq_ok.mpr rfl
    have hout := hstack ⟨_, hfits.top⟩ (Or.inl rfl)
    obtain ⟨s₁, hunmap⟩ := (unmap_ok_iff hb hout).mpr hfits.guard
    have hb₁ : BootState pt root s₁ (b.earlyPages.map Prod.snd) b.EarlyOn :=
      (unmap_boot hb hout hunmap).1
    obtain ⟨s', hreflag⟩ := (reflag_ok_iff hstack hfits.top hfits.bottom hfits.size hb₁).mpr
      fun a ha => by simpa only [List.forall_mem_map] using hfits.stack a ha
    refine ⟨s', ?_⟩
    rw [remapStack, htop, ok_bind, hbottom, ok_bind, hunmap, paging_ok, andThen_ok, hreflag,
      paging_ok]

end Stack

/-! ## `init_paging` -/

/-- What `init_paging` asks of the boot information. -/
structure PagingFits (b : BootInfo) (kSect : MemoryRegionInfo) : Prop where
  kernel : kernelRegion b = some kSect
  image : ImageOk b kSect
  regions : ∀ r ∈ b.rammapEntries, (miscFlags r.type).isSome → RegionOk b r
  early : Asked (fun _ _ => False) b.earlyPages
  stack : StackFits b
  usable : ∀ r ∈ b.rammapEntries, r.type = .usable → Fits b.sizeBytes r

section Paging

variable {b : BootInfo} {kSect : MemoryRegionInfo} {pt : RecursivePageTable} {root : PhysAddr}
  {s s₀ s₁ s₂ s₃ : PagingState LinearFrameAllocator}

/-- **WHEN THE BITMAPS ARE MADE.** -/
theorem makeBitmaps_ok_iff {sizeBytes : Nat} (hoff : IsCanonical pt.internalOffset)
    (hroom : Room pt.internalOffset (s.alloc.cursor.addr
      + (sizeInPages sizeBytes + sizeInPages (sizeBytes * 2)) * PAGE_SIZE)) :
    (∃ maps s', makeBitmaps b pt sizeBytes s = .ok (.ok maps, s'))
      ↔ ∀ r ∈ b.rammapEntries, r.type = .usable → Fits sizeBytes r := by
  have hlow := hroom.low
  rw [Nat.add_mul] at hlow
  obtain ⟨a, la, hnew⟩ : ∃ a la, BitmapAllocator.new sizeBytes true s.alloc pt
      = .ok (.ok a, la) :=
    bitmapNew_total true (by omega) (hroom.canonical hoff (by omega))
  obtain ⟨_, ha, hbuilt⟩ := bitmapNew_cases hnew
  cases ha
  rw [← hbuilt.length, ← clearUsable_returns_iff, hbuilt.length]
  constructor
  · rintro ⟨maps, s', h⟩
    obtain ⟨frames, s₁, h₁, -⟩ := andThen_eq_ok h
    obtain ⟨a₁, la₁, hnew₁, hrest⟩ := andThen_eq_ok (onAllocator_eq_ok h₁).1
    cases hnew₁.symm.trans hnew
    obtain ⟨a', hclear, -⟩ := bind_eq_ok.mp hrest
    exact ⟨a', hclear⟩
  · rintro ⟨a', hclear⟩
    obtain ⟨av, la', hvirt⟩ : ∃ av la', BitmapAllocator.new (sizeBytes * 2) true la pt
        = .ok (.ok av, la') := by
      apply bitmapNew_total
      · rw [hbuilt.cursor]
        omega
      · rw [hbuilt.cursor]
        exact hroom.canonical hoff (by rw [Nat.add_mul]; omega)
    refine ⟨(⟨a'⟩, ⟨av⟩), ⟨s.mem, la'⟩, ?_⟩
    rw [makeBitmaps, BitmapFrameAllocator.new, hnew, andThen_ok, hclear, ok_bind]
    dsimp only [onAllocator, andThen, pure_eq_ok, Except.pure]
    rw [VirtualMemoryAllocator.new, hvirt]
    rfl

/-- The region of the kernel is among those whose ends are compared. -/
theorem highest_of_kernel (hkernel : kernelRegion b = some kSect) :
    ∃ highest, highestValidRegion b = some highest := by
  cases hhighest : highestValidRegion b with
  | some highest => exact ⟨highest, rfl⟩
  | none =>
      have hmem : kSect ∈ b.rammapEntries.filter
          fun r => r.type ≠ .reserved ∧ r.type ≠ .framebuffer := by
        refine List.mem_filter.mpr ⟨List.mem_of_find?_eq_some hkernel, ?_⟩
        have htype := List.find?_some hkernel
        simp only [decide_eq_true_eq] at htype ⊢
        rw [htype]
        exact ⟨nofun, nofun⟩
      rw [maxBy_eq_none hhighest] at hmem
      cases hmem

/-- What the page table holds behind `map_misc`. -/
theorem early_boot (hkernel : kernelRegion b = some kSect)
    (hoff : pt.internalOffset = b.hhdm.offset.addr)
    (hb : BootState pt root s₀ [] fun _ _ => False)
    (h₁ : mapKernel b pt kSect s₀ = .ok (.ok (), s₁))
    (h₂ : mapMisc b pt s₁ = .ok (.ok (), s₂)) :
    BootState pt root s₂ (b.earlyPages.map Prod.snd) (OnList b.earlyPages)
      ∧ Grown root (3 * b.earlyPages.length) s₀ s₂ := by
  have hplaced := earlyPages_placed hkernel hoff hb h₁ h₂
  exact ⟨hplaced.boot.congr (fun a => by simp) fun w f => or_iff_right id, hplaced.grown⟩

/-- How far the cursor has come before the bitmaps are made. -/
theorem early_limit (hcur : s.alloc.cursor.addr = b.heapEnd)
    (hcur₀ : s₀.alloc.cursor.addr = s.alloc.cursor.addr + PAGE_SIZE)
    (hearly : Grown root (3 * b.earlyPages.length) s₀ s₃) :
    s₃.alloc.cursor.addr + b.bitmapPages * PAGE_SIZE ≤ bootLimit b := by
  have hbound := hearly.bound
  rw [bootLimit]
  simp only [PAGE_SIZE] at *
  omega

/-- **WHEN `init_paging` RETURNS `Ok`.** -/
theorem initPaging_ok_iff (hstack : b.StackOutside) {entry : VirtAddr}
    (hentry : entry.addr = b.entryStackPointer) (hcur : s.alloc.cursor.addr = b.heapEnd)
    (hroom : Room b.hhdm.offset.addr (bootLimit b)) :
    (∃ ctl s', initPaging b entry s = .ok (.ok ctl, s'))
      ↔ b.heapEnd % PAGE_SIZE = 0 ∧ ∃ kSect, PagingFits b kSect := by
  -- the limit leaves room for three tables for each page
  have hlimit : b.heapEnd + PAGE_SIZE + 3 * b.earlyPages.length * PAGE_SIZE ≤ bootLimit b := by
    rw [bootLimit, PAGE_SIZE]
    omega
  constructor
  · rintro ⟨⟨pt, maps⟩, s', h⟩
    obtain ⟨kSect, s₀, s₁, s₂, s₃, hkernel, hnew, h₁, h₂, h₃, h₄⟩ := initPaging_steps h
    obtain ⟨root, hb₀, hoff, -, hal, hcur₀⟩ := new_boot hnew
    obtain ⟨hb₂, hgrown₂⟩ := early_boot hkernel hoff hb₀ h₁ h₂
    have hgrown := hgrown₂.trans (remapStack_boot hentry hstack hb₂ h₃).2
    obtain ⟨himage, hregions, hearly⟩ := (early_ok_iff hkernel hoff hb₀
      (hroom.mono (by rw [hcur₀, hcur]; exact hlimit))).mp ⟨s₁, s₂, h₁, h₂⟩
    refine ⟨hcur ▸ hal, kSect, hkernel, himage, hregions, hearly,
      (remapStack_ok_iff hstack hentry hb₂).mp ⟨s₃, h₃⟩, ?_⟩
    exact (makeBitmaps_ok_iff (hoff ▸ b.hhdm.offset.canonical)
      (hoff ▸ hroom.mono (early_limit hcur hcur₀ hgrown))).mp ⟨maps, s', h₄⟩
  · rintro ⟨hal, kSect, hfits⟩
    obtain ⟨pt, s₀, hnew⟩ : ∃ pt s₀, RecursivePageTable.new b.hhdm s = .ok (pt, s₀) :=
      new_boot_total s (hcur ▸ hal) (hroom.mono (by rw [hcur]; omega))
    obtain ⟨root, hb₀, hoff, -, -, hcur₀⟩ := new_boot hnew
    obtain ⟨s₁, s₂, h₁, h₂⟩ := (early_ok_iff hfits.kernel hoff hb₀
      (hroom.mono (by rw [hcur₀, hcur]; exact hlimit))).mpr
      ⟨hfits.image, hfits.regions, hfits.early⟩
    obtain ⟨hb₂, hgrown₂⟩ := early_boot hfits.kernel hoff hb₀ h₁ h₂
    obtain ⟨s₃, h₃⟩ := (remapStack_ok_iff hstack hentry hb₂).mpr hfits.stack
    have hgrown := hgrown₂.trans (remapStack_boot hentry hstack hb₂ h₃).2
    obtain ⟨maps, s', h₄⟩ := (makeBitmaps_ok_iff (hoff ▸ b.hhdm.offset.canonical)
      (hoff ▸ hroom.mono (early_limit hcur hcur₀ hgrown))).mpr hfits.usable
    obtain ⟨highest, hhighest⟩ := highest_of_kernel hfits.kernel
    rw [BootInfo.sizeBytes_eq hhighest] at h₄
    refine ⟨(pt, maps), s', ?_⟩
    rw [initPaging, hnew, ok_bind]
    dsimp only
    rw [hfits.kernel, hhighest]
    dsimp only
    rw [h₁, andThen_ok, h₂, andThen_ok, h₃, andThen_ok, h₄, andThen_ok]

end Paging

/-! ## `init_memory` -/

/-- What `init_memory` asks of the boot information: what `init_paging` asks, a Usable region
    on a page boundary, a heap that can be mapped beside the rest (or over the guard
    page), and a frame bitmap that reaches to the last frame that boot takes. -/
structure Boots (b : BootInfo) (region kSect : MemoryRegionInfo) : Prop
    extends PagingFits b kSect where
  allocator : allocatorRegion b = some region
  aligned : region.base % PAGE_SIZE = 0
  heap : Asked b.EarlyOn b.heapMappings
  capacity : b.heapEnd / PAGE_SIZE + b.bootFrames ≤ b.sizeBytes * 8

section Memory

variable {b : BootInfo} {region kSect : MemoryRegionInfo} {pt : RecursivePageTable}
  {root : PhysAddr} {s s₁ s₂ : PagingState LinearFrameAllocator} {bitmaps : Nat}
  {maps : BitmapFrameAllocator × VirtualMemoryAllocator} {heapPhys : PhysAddr}
  {heapVirt : VirtAddr}

/-- **WHEN THE HEAP IS MAPPED.** -/
theorem mapHeap_ok_iff (hpaged : Paged b root s s₁ bitmaps pt maps)
    (hcur : s.alloc.cursor.addr = b.heapEnd)
    (hroom : Room b.hhdm.offset.addr (bootLimit b)) (hphys : heapPhys.addr = b.allocatorBase)
    (hvirt : heapVirt.addr = b.allocatorBase + b.hhdm.offset.addr) :
    (∃ s₂, pt.mapContiguous heapPages heapPhys heapVirt flagsRw s₁ = .ok (.ok (), s₂))
      ↔ Asked b.EarlyOn b.heapMappings := by
  have hlimit := hpaged.limit
  rw [hcur] at hlimit
  rw [mapContiguous_eq, if_pos (by decide), hphys, hvirt]
  refine mapPages_ok_iff flagsRw_present (hpaged.offset ▸ b.hhdm.offset.canonical) hpaged.boot ?_
  rw [hpaged.offset, hpaged.behind, pagesFrom_length]
  exact hroom.mono (heapTables_le_bootLimit hlimit)

/-- The state behind the mapping of the heap. -/
theorem prepared_of_heap (hpaged : Paged b root s s₁ bitmaps pt maps)
    (hcur : s.alloc.cursor.addr = b.heapEnd) (hphys : heapPhys.addr = b.allocatorBase)
    (hvirt : heapVirt.addr = b.allocatorBase + b.hhdm.offset.addr)
    (hmap : pt.mapContiguous heapPages heapPhys heapVirt flagsRw s₁ = .ok (.ok (), s₂)) :
    Prepared b root s₂ bitmaps ⟨pt, maps.1, maps.2, s₂.mem⟩ := by
  have hplaced := mapContiguous_placed flagsRw_present hpaged.boot hmap
  rw [hphys, hvirt] at hplaced
  have htables := hplaced.grown.tables_eq
  rw [hpaged.tables_eq, hcur, hpaged.behind] at htables
  refine ⟨rfl, ?_, hpaged.offset, hcur ▸ hpaged.start, hpaged.bitmapsAligned,
    hcur ▸ hpaged.before, hpaged.behind ▸ hplaced.grown.le, htables, hpaged.frames,
    hpaged.pages, hpaged.aligned⟩
  refine hplaced.boot.congr (fun a => ?_) fun w f => Iff.rfl
  simp [BootInfo.heapMappings, or_comm]

/-- **WHEN THE BOOT FRAMES ARE RESERVED.** -/
theorem reserve_ok_iff (hprep : Prepared b root s₂ bitmaps ⟨pt, maps.1, maps.2, s₂.mem⟩) :
    (∃ bits, maps.1.bits.flagRange (b.allocatorBase / PAGE_SIZE)
        (s₂.alloc.cursor.addr / PAGE_SIZE) true = .ok (.ok (), bits))
      ↔ b.heapEnd / PAGE_SIZE + b.bootFrames ≤ b.sizeBytes * 8 := by
  have hcursor : s₂.alloc.cursor.addr / PAGE_SIZE = b.heapEnd / PAGE_SIZE + b.bootFrames := by
    rw [hprep.cursor_eq, Nat.add_mul_div_right _ _ (by decide)]
  have hlt : b.allocatorBase / PAGE_SIZE < b.heapEnd / PAGE_SIZE + b.bootFrames := by
    rw [BootInfo.heapEnd]
    unfold KERNEL_HEAP_SIZE PAGE_SIZE
    omega
  rw [hcursor, BitmapAllocator.flagRange_returns_iff true hlt.le, if_pos hlt,
    hprep.frames.length]

/-- The steps of `init_memory`, put together again. -/
theorem prepareMemory_of_steps {mem : PhysMem} {bits : BitmapAllocator} {entry : VirtAddr}
    (hregion : allocatorRegion b = some region) (hroom : Room b.hhdm.offset.addr b.heapEnd)
    (hvalid : b.heapEnd < 2 ^ 52) (hentry : entry.addr = b.entryStackPointer)
    (hinit : initPaging b entry ⟨mem, ⟨⟨b.heapEnd, hvalid⟩⟩⟩ = .ok (.ok (pt, maps), s₁))
    (hoff : pt.internalOffset = b.hhdm.offset.addr) (hphys : heapPhys.addr = b.allocatorBase)
    (hvirt : heapVirt.addr = b.allocatorBase + b.hhdm.offset.addr)
    (hmap : pt.mapContiguous heapPages heapPhys heapVirt flagsRw s₁ = .ok (.ok (), s₂))
    (hflag : maps.1.bits.flagRange (b.allocatorBase / PAGE_SIZE)
      (s₂.alloc.cursor.addr / PAGE_SIZE) true = .ok (.ok (), bits)) :
    prepareMemory b mem = .ok (.ok (⟨pt, ⟨bits⟩, maps.2, s₂.mem⟩, heapVirt)) := by
  have hlow := hroom.low
  have hbase := BootInfo.allocatorBase_eq hregion
  have hend : b.heapEnd = heapPhys.addr + heapPages * PAGE_SIZE := by
    rw [hphys]
    rfl
  rw [hbase] at hphys hvirt hflag
  have hcan : IsCanonical region.base := Or.inl (by omega)
  have hnewPhys : PhysAddr.new region.base = .ok heapPhys := PhysAddr.new_eq_ok.mpr hphys
  have hnewVirt : VirtAddr.new region.base = .ok ⟨_, hcan⟩ := VirtAddr.new_eq_ok.mpr rfl
  have hadd : VirtAddr.add ⟨_, hcan⟩ b.hhdm.offset.addr = .ok heapVirt :=
    VirtAddr.add_eq_ok.mpr hvirt
  have hstart : PhysAddr.new (heapVirt.addr - b.hhdm.offset.addr) = .ok heapPhys := by
    rw [hvirt, Nat.add_sub_cancel]
    exact hnewPhys
  have halloc : LinearFrameAllocator.allocContiguous ⟨heapPhys⟩ heapPages
      = .ok (.ok heapPhys, ⟨⟨b.heapEnd, hvalid⟩⟩) :=
    LinearFrameAllocator.allocContiguous_eq_ok.mpr ⟨rfl, hend⟩
  have hnewEntry : VirtAddr.new b.entryStackPointer = .ok entry :=
    VirtAddr.new_eq_ok.mpr hentry
  have hprepare : prepareIn b region mem
      = .ok (.ok (⟨pt, ⟨bits⟩, maps.2, s₂.mem⟩, heapVirt), s₂) := by
    rw [prepareIn, hnewPhys, ok_bind, hnewVirt, ok_bind, hadd, ok_bind, hstart, ok_bind]
    dsimp only
    rw [halloc, onAllocator, andThen_ok, hnewEntry, ok_bind, hinit, andThen_ok]
    dsimp only
    rw [hphys, hnewVirt, ok_bind, hoff, hadd, ok_bind, hmap, paging_ok, andThen_ok, hflag,
      ok_bind]
    rfl
  rw [prepareMemory, hregion]
  dsimp only
  rw [hprepare, ok_bind]
  rfl

/-- **WHEN `load` IS REACHED.** -/
theorem prepareMemory_ok_iff (hstack : b.StackOutside) (mem : PhysMem)
    (hroom : Room b.hhdm.offset.addr (bootLimit b)) :
    (∃ c heapVirt, prepareMemory b mem = .ok (.ok (c, heapVirt)))
      ↔ ∃ region kSect, Boots b region kSect := by
  constructor
  · rintro ⟨c, heapVirt, h⟩
    obtain ⟨region, entry, heapPhys, s₀, s₁, s₂, maps, bits, hregion, hentry, hphys, hvirt, hcur,
      hinit, hmap, hflag, -, -, -⟩ := prepareMemory_steps h
    obtain ⟨root, bitmaps, hpaged⟩ := initPaging_cases hentry hstack hinit
    rw [hpaged.offset] at hvirt
    obtain ⟨hal, kSect, hfits⟩ := (initPaging_ok_iff hstack hentry hcur hroom).mp ⟨_, s₁, hinit⟩
    refine ⟨region, kSect, hfits, hregion, ?_, ?_, ?_⟩
    · rw [BootInfo.heapEnd, BootInfo.allocatorBase_eq hregion] at hal
      unfold KERNEL_HEAP_SIZE PAGE_SIZE at *
      omega
    · exact (mapHeap_ok_iff hpaged hcur hroom hphys hvirt).mp ⟨s₂, hmap⟩
    · exact (reserve_ok_iff (prepared_of_heap hpaged hcur hphys hvirt hmap)).mp ⟨bits, hflag⟩
  · rintro ⟨region, kSect, hboots⟩
    have hroom' : Room b.hhdm.offset.addr b.heapEnd := hroom.mono (Nat.le_add_right _ _)
    have hlow := hroom'.low
    have hle : b.allocatorBase ≤ b.heapEnd := Nat.le_add_right _ _
    have haligned : b.heapEnd % PAGE_SIZE = 0 := by
      have hregion := hboots.aligned
      rw [BootInfo.heapEnd, BootInfo.allocatorBase_eq hboots.allocator]
      unfold KERNEL_HEAP_SIZE PAGE_SIZE at *
      omega
    obtain ⟨heapPhys, hphys⟩ : ∃ p : PhysAddr, p.addr = b.allocatorBase :=
      ⟨⟨b.allocatorBase, by omega⟩, rfl⟩
    obtain ⟨heapVirt, hvirt⟩ : ∃ v : VirtAddr, v.addr = b.allocatorBase + b.hhdm.offset.addr :=
      ⟨⟨_, hroom'.canonical b.hhdm.offset.canonical hle⟩, rfl⟩
    obtain ⟨entry, hentry⟩ : ∃ v : VirtAddr, v.addr = b.entryStackPointer :=
      ⟨⟨b.entryStackPointer, hboots.stack.entry⟩, rfl⟩
    obtain ⟨⟨pt, maps⟩, s₁, hinit⟩ := (initPaging_ok_iff (s := ⟨mem, ⟨⟨b.heapEnd, by omega⟩⟩⟩)
      hstack hentry rfl hroom).mpr ⟨haligned, kSect, hboots.toPagingFits⟩
    obtain ⟨root, bitmaps, hpaged⟩ := initPaging_cases hentry hstack hinit
    obtain ⟨s₂, hmap⟩ := (mapHeap_ok_iff hpaged rfl hroom hphys hvirt).mpr hboots.heap
    obtain ⟨bits, hflag⟩ := (reserve_ok_iff (prepared_of_heap hpaged rfl hphys hvirt hmap)).mpr
      hboots.capacity
    exact ⟨_, heapVirt, prepareMemory_of_steps hboots.allocator hroom' (by omega) hentry hinit
      hpaged.offset hphys hvirt hmap hflag⟩

/-- Behind `load` nothing can fail. -/
theorem initMemory_reaches_iff (hstack : b.StackOutside) (mem : PhysMem) :
    (∃ k, initMemory b mem = .ok (.ok k))
      ↔ ∃ c heapVirt, prepareMemory b mem = .ok (.ok (c, heapVirt)) := by
  constructor
  · rintro ⟨k, h⟩
    obtain ⟨answer, hprep, h⟩ := bind_eq_ok.mp h
    cases answer with
    | error e => cases h
    | ok x => exact ⟨x.1, x.2, hprep⟩
  · rintro ⟨c, heapVirt, h⟩
    obtain ⟨⟨kSect, root, hspace⟩, -⟩ := prepareMemory_space hstack h
    refine ⟨some { c with recPageTable := ⟨LEVEL4, c.recPageTable.internalOffset⟩ }, ?_⟩
    rw [initMemory, h, ok_bind]
    dsimp only
    rw [load_eq hspace.wf, ok_bind]
    rfl

end Memory

end KermolBootReached
