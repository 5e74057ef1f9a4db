import Kermol.BootReachedProofs
import Kermol.DisplayMemoryProofs
import Kermol.VgaTextProofs

/-! # The display behind the new page table

    `init_kwriter` keeps a slice of the address that the boot loader gives for the
    framebuffer.  When `init_memory` loads its own page table, the slice is only
    there if `map_misc` has mapped it again; every line printed from then on goes
    through the new table.

    `display_kept` says that it is there, byte for byte where it was, and that
    whatever is printed changes the physical memory of the framebuffer and
    nothing else.  None of it is memory that boot has taken for the heap, the
    page tables and the bitmaps, provided that the region of the linear
    allocator is large enough, which `init_memory` does not check. -/

namespace KermolDisplaySpace

open RustEffect X86Paging Raster ByteMemory ByteBits KermolFrameAllocator KermolPageTable
open KermolMapStep KermolPageTableRun KermolBootTables KermolFrameBitmap KermolController
open KermolInitMemory KermolPrepared KermolBootMap KermolBootReached KermolAddressSpace
open KermolBitmap KermolFramebuffer KermolDisplayMemory KermolVgaText

/-! ## Stores -/

/-- The physical address that a store to an address goes to; none if it is a page
    fault. -/
def storePlace (mem : PhysMem) (cr3 : PhysAddr) (a : Nat) : Option Nat :=
  if h : IsCanonical a then
    (hardwareWalk mem cr3 ⟨a, h⟩).bind fun t => if t.writable then some t.phys else none
  else none

theorem storePlace_eq {mem : PhysMem} {root : PhysAddr} {v : VirtAddr} {t : Translation}
    (ht : hardwareWalk mem root v = some t) (hw : t.writable = true) :
    storePlace mem root v.addr = some t.phys := by
  rw [storePlace, dif_pos v.canonical, ht]
  exact if_pos hw

/-- The bytes of the slice that `new` makes. -/
def sliceBytes (fb : Framebuffer) : Nat := 4 * (fb.width * fb.height)

/-- The framebuffer where it lies in physical memory. -/
def physical (b : BootInfo) (fb : Framebuffer) : Framebuffer :=
  { fb with address := fb.address - b.hhdm.offset.addr }

/-- The framebuffer lies in the direct map of a region that `map_misc` maps, and has no byte
    of the guard page. -/
structure DisplayIn (b : BootInfo) (r : MemoryRegionInfo) (fb : Framebuffer) : Prop where
  region : r ∈ b.rammapEntries
  mapped : (miscFlags r.type).isSome
  low : r.base + b.hhdm.offset.addr ≤ fb.address
  high : fb.address + sliceBytes fb ≤ r.base + b.hhdm.offset.addr + r.length
  guard : ∀ i < sliceBytes fb, (fb.address + i) / PAGE_SIZE ≠ b.stackTop / PAGE_SIZE

/-- A byte of physical memory that is no part of the heap, of a page table or of a
    bitmap, and in no frame that counts as free. -/
structure Apart (b : BootInfo) (c : KernelPagingController) (q : Nat) : Prop where
  heap : ¬ (b.allocatorBase ≤ q ∧ q < b.heapEnd)
  tables : q / PAGE_SIZE * PAGE_SIZE ∉ c.tableFrames
  frames : ∀ j < c.frameAllocator.bits.bitmap.length,
    c.frameAllocator.bits.ptr.addr - c.recPageTable.internalOffset + j ≠ q
  pages : ∀ j < c.virtMemAllocator.bits.bitmap.length,
    c.virtMemAllocator.bits.ptr.addr - c.recPageTable.internalOffset + j ≠ q
  taken : q / PAGE_SIZE < 8 * c.frameAllocator.bits.bitmap.length →
    bitAt c.frameAllocator.bits.bitmap (q / PAGE_SIZE) = true

section Display

variable {b : BootInfo} {kSect region r : MemoryRegionInfo} {root : PhysAddr}
  {s : PagingState LinearFrameAllocator} {bitmaps q i : Nat} {c : KernelPagingController}
  {fb : Framebuffer}

/-- The region of the linear allocator is Usable. -/
theorem allocatorRegion_mem (h : allocatorRegion b = some region) :
    region ∈ b.rammapEntries ∧ region.type = .usable := by
  obtain ⟨hmem, htype⟩ := List.mem_filter.mp (maxBy_mem h)
  exact ⟨hmem, of_decide_eq_true htype⟩

/-- What boot has taken lies between the start of the heap and the last boot frame. -/
theorem apart_of_outside (hp : Prepared b root s bitmaps c)
    (hout : q < b.allocatorBase ∨ b.heapEnd + b.bootFrames * PAGE_SIZE ≤ q)
    (htaken : q / PAGE_SIZE < 8 * c.frameAllocator.bits.bitmap.length →
      bitAt c.frameAllocator.bits.bitmap (q / PAGE_SIZE) = true) : Apart b c q := by
  have hcursor := hp.cursor_eq
  have hstart := hp.start
  have hbefore := hp.before
  have hbehind := hp.behind
  have hend : b.heapEnd = b.allocatorBase + 4 * 1024 * 1024 := rfl
  have hframes := le_sizeInPages b.sizeBytes
  have hpages := le_sizeInPages (b.sizeBytes * 2)
  rw [hcursor, BootInfo.bitmapPages, Nat.add_mul] at hbehind
  refine ⟨by omega, fun hn => ?_, fun j hj => ?_, fun j hj => ?_, htaken⟩
  · rw [hp.tableFrames_eq, hp.tables_eq, hcursor] at hn
    rcases hn with ⟨hlo, hhi, -⟩ | ⟨hlo, hhi, -⟩
    all_goals
      unfold PAGE_SIZE at *
      omega
  · rw [hp.frames.length] at hj
    rw [hp.frames.ptr]
    omega
  · rw [hp.pages.length] at hj
    rw [hp.pages.ptr]
    omega

/-- A byte of a region that `map_misc` maps is found where it was. -/
theorem region_byte (hspace : Space b kSect root c) (hmappable : ∀ m ∈ b.miscPages, Mappable m)
    (hr : r ∈ b.rammapEntries) (hsome : (miscFlags r.type).isSome) (hi : i < r.length)
    (hguard : (r.base + b.hhdm.offset.addr + i) / PAGE_SIZE ≠ b.stackTop / PAGE_SIZE) :
    ∃ (v : VirtAddr) (t : Translation), v.addr = r.base + b.hhdm.offset.addr + i
      ∧ pageIndex 4 v ≠ RECURSIVE ∧ hardwareWalk c.mem root v = some t ∧ t.phys = r.base + i
      ∧ t.writable = true := by
  have hsub : ∀ m ∈ pagesFrom r.base (r.base + b.hhdm.offset.addr) (sizeInPages r.length),
      m ∈ b.miscPages := by
    intro m hm
    obtain ⟨k, hk, rfl⟩ := mem_pagesFrom.mp hm
    exact mem_miscPages.mpr ⟨r, hr, hsome, k, hk, rfl⟩
  have hpages : i < sizeInPages r.length * PAGE_SIZE := by
    have hle := le_sizeInPages r.length
    omega
  have hal : (r.base + b.hhdm.offset.addr) % PAGE_SIZE = 0 := by
    have hfirst : (r.base, r.base + b.hhdm.offset.addr)
        ∈ pagesFrom r.base (r.base + b.hhdm.offset.addr) (sizeInPages r.length) :=
      mem_pagesFrom.mpr ⟨0, by unfold PAGE_SIZE at *; omega, by simp⟩
    have hbase : r.base % PAGE_SIZE = 0 := (hmappable _ (hsub _ hfirst)).aligned
    have hoff := b.hhdm.aligned
    unfold PAGE_SIZE at *
    omega
  obtain ⟨v, hv, hout, page, hpage, hnumber, hplace⟩ :=
    pagesFrom_byte (fun m hm => hmappable m (hsub m hm)) hal hpages
  have hmem : (v.page, page.1, flagsRwx) ∈ miscPart b :=
    mem_flagged.mpr ⟨rfl, page, hsub _ hpage, hnumber, rfl⟩
  obtain ⟨t, ht, hphys, hw, -⟩ := hspace.misc_at hout hmem (by
    show v.addr / PAGE_SIZE ≠ _
    rw [hv]
    exact hguard)
  exact ⟨v, t, hv, hout, ht, hphys.trans hplace, hw⟩

/-- The bytes of the framebuffer are no part of the region that boot takes its memory
    from. -/
theorem display_outside (hmap : MemoryMapOk b) (hregion : allocatorRegion b = some region)
    (hlarge : b.heapEnd + b.bootFrames * PAGE_SIZE ≤ region.base + region.length)
    (hfb : DisplayIn b r fb) (hi : i < sliceBytes fb) :
    fb.address - b.hhdm.offset.addr + i < b.allocatorBase
      ∨ b.heapEnd + b.bootFrames * PAGE_SIZE ≤ fb.address - b.hhdm.offset.addr + i := by
  obtain ⟨hmem, husable⟩ := allocatorRegion_mem hregion
  have hsep := hmap.separate region hmem husable r hfb.region (not_usable_of_misc hfb.mapped)
  have hlow := hfb.low
  have hhigh := hfb.high
  rw [BootInfo.allocatorBase_eq hregion]
  rcases hsep with hbelow | habove
  · right
    omega
  · left
    omega

/-- Every byte of the framebuffer is where it was. -/
theorem display_place (hspace : Space b kSect root c)
    (hmappable : ∀ m ∈ b.miscPages, Mappable m) (hfb : DisplayIn b r fb)
    (hi : i < sliceBytes fb) :
    ∃ (v : VirtAddr) (t : Translation), v.addr = fb.address + i ∧ pageIndex 4 v ≠ RECURSIVE
      ∧ hardwareWalk c.mem root v = some t ∧ t.phys = fb.address - b.hhdm.offset.addr + i
      ∧ t.writable = true := by
  have hlow := hfb.low
  have hhigh := hfb.high
  have haddr : r.base + b.hhdm.offset.addr + (fb.address - (r.base + b.hhdm.offset.addr) + i)
      = fb.address + i := by omega
  obtain ⟨v, t, hv, hout, ht, hphys, hw⟩ := region_byte hspace hmappable hfb.region hfb.mapped
    (i := fb.address - (r.base + b.hhdm.offset.addr) + i) (by omega) (by
      rw [haddr]
      exact hfb.guard i hi)
  exact ⟨v, t, hv.trans haddr, hout, ht, by rw [hphys]; omega, hw⟩

/-- A page that is mapped counts as taken. -/
theorem mapped_taken {cursor : Nat} {v : VirtAddr} {t : Translation}
    (hspace : Space b kSect root c) (hmap : MemoryMapOk b) (htaken : Taken b c cursor)
    (hv : pageIndex 4 v ≠ RECURSIVE) (ht : hardwareWalk c.mem root v = some t)
    (hlt : t.phys / PAGE_SIZE < 8 * c.frameAllocator.bits.bitmap.length) :
    bitAt c.frameAllocator.bits.bitmap (t.phys / PAGE_SIZE) = true := by
  by_contra hclear
  exact hspace.elsewhere hmap htaken hlt (Bool.eq_false_iff.mpr hclear) hv ht rfl

/-- A picture that is stored where the bytes of the framebuffer are. -/
theorem stored_picture {place : Nat → Option Nat} {lfb : LinearFramebuffer}
    (hplace : ∀ i < sliceBytes fb,
      place (fb.address + i) = some (fb.address - b.hhdm.offset.addr + i))
    (hwidth : lfb.width = fb.width) (hheight : lfb.height = fb.height) (phys : Memory) :
    ∃ phys', storeBytes place fb.address (lfb.buffer.flatMap Layout.encode) phys = some phys'
      ∧ (∀ x < fb.width, ∀ y < fb.height, ∀ j < 4, phys' (sliceByte (physical b fb) x y j)
        = (encodeColor (lfb.pixel x y)).getD j 0#8)
      ∧ ∀ q, ¬ InBlock (physical b fb).address (sliceBytes fb) q → phys' q = phys q := by
  have hlen : lfb.buffer.length = fb.width * fb.height := by
    rw [lfb.length_eq, hwidth, hheight]
  have hbytes : (lfb.buffer.flatMap Layout.encode).length = sliceBytes fb := by
    rw [length_flatMap_rows Layout.length_encode, hlen]
    rfl
  refine ⟨sliceWrite phys (physical b fb).address lfb.buffer, ?_, fun x hx y hy j hj => ?_,
    fun q hq => ?_⟩
  · rw [storeBytes_linear _ (fun i hi => hplace i (hbytes ▸ hi))]
    rfl
  · exact written_byte hwidth hheight hx hy hj
  · refine sliceWrite_outside phys ?_
    rw [hlen]
    exact hq

/-- **THE DISPLAY IS KEPT.**  With a region for the linear allocator that is large enough,
    every byte of the framebuffer can be stored to at `load`, and goes where it
    went before; there it harms no heap, page table or bitmap and lies in no frame
    that counts as free.  Whatever the writer prints from then on is in the physical
    memory of the framebuffer, and no other byte changes. -/
theorem display_kept (b : BootInfo) (mem : PhysMem) (c : KernelPagingController)
    (heapVirt : VirtAddr) (region r : MemoryRegionInfo) (fb : Framebuffer)
    (hstack : b.StackOutside) (hroom : Room b.hhdm.offset.addr (bootLimit b))
    (hmap : MemoryMapOk b) (h : prepareMemory b mem = .ok (.ok (c, heapVirt)))
    (hregion : allocatorRegion b = some region)
    (hlarge : b.heapEnd + b.bootFrames * PAGE_SIZE ≤ region.base + region.length)
    (hfb : DisplayIn b r fb) :
    ∃ root pt', c.recPageTable.load = .ok (pt', root)
      ∧ (∀ i < sliceBytes fb,
        storePlace c.mem root (fb.address + i) = some ((physical b fb).address + i)
          ∧ Apart b c ((physical b fb).address + i))
      ∧ ∀ (w : VGAWriter) (ops : List TextOp) (phys : Memory), w.lfb.width = fb.width →
        w.lfb.height = fb.height → InGrid w →
        ∃ w' phys', textRun ops w = .ok w'
          ∧ storeBytes (storePlace c.mem root) fb.address
            (w'.lfb.buffer.flatMap Layout.encode) phys = some phys'
          ∧ (∀ x < fb.width, ∀ y < fb.height, ∀ j < 4,
            phys' (sliceByte (physical b fb) x y j)
              = (encodeColor (w'.lfb.pixel x y)).getD j 0#8)
          ∧ ∀ q, ¬ InBlock (physical b fb).address (sliceBytes fb) q → phys' q = phys q := by
  obtain ⟨⟨kSect, root, hspace⟩, -⟩ := prepareMemory_space hstack h
  obtain ⟨cursor, htaken⟩ := prepareMemory_taken hstack h
  obtain ⟨_, _, _, hp⟩ := prepareMemory_cases hstack h
  obtain ⟨_, _, hboots⟩ := (prepareMemory_ok_iff hstack mem hroom).mp ⟨c, heapVirt, h⟩
  have hmappable : ∀ m ∈ b.miscPages, Mappable m := fun m hm =>
    hboots.early.mappable m (List.mem_append_right _ hm)
  have hplace : ∀ i < sliceBytes fb,
      storePlace c.mem root (fb.address + i) = some (fb.address - b.hhdm.offset.addr + i) := by
    intro i hi
    obtain ⟨v, t, hv, -, ht, hphys, hw⟩ := display_place hspace hmappable hfb hi
    rw [← hv, storePlace_eq ht hw, hphys]
  refine ⟨root, _, load_eq hspace.wf, fun i hi => ⟨hplace i hi, ?_⟩, ?_⟩
  · refine apart_of_outside hp (display_outside hmap hregion hlarge hfb hi) fun hlt => ?_
    obtain ⟨v, t, -, hout, ht, hphys, -⟩ := display_place hspace hmappable hfb hi
    have hframe : (physical b fb).address + i = t.phys := hphys.symm
    rw [hframe] at hlt ⊢
    exact mapped_taken hspace hmap htaken hout ht hlt
  · intro w ops phys hwidth hheight hgrid
    obtain ⟨w', hrun, hready⟩ := textRun_ready ops
      (show Ready w.lfb w from ⟨rfl, rfl, hgrid.1, hgrid.2⟩)
    obtain ⟨phys', hstored⟩ := stored_picture hplace (hready.width.trans hwidth)
      (hready.height.trans hheight) phys
    exact ⟨w', phys', hrun, hstored⟩

/-- Boot takes no more memory than its limit. -/
theorem bootFrames_le (b : BootInfo) : b.heapEnd + b.bootFrames * PAGE_SIZE ≤ bootLimit b := by
  have hcount : tableCount ((b.earlyPages ++ b.heapMappings).map Prod.snd)
      ≤ 3 * (b.earlyPages.length + heapPages) := by
    rw [tableCount]
    refine (List.dedup_sublist _).length_le.trans ?_
    rw [length_flatMap_rows (w := 3) fun _ => rfl, List.length_map, List.length_append,
      BootInfo.heapMappings, pagesFrom_length]
  rw [bootLimit, BootInfo.bootFrames]
  refine Nat.add_le_add_left (Nat.mul_le_mul_right _ ?_) _
  omega

end Display

/-- The screen of the sample boot. -/
def sampleScreen : Framebuffer where
  address := 0xFFFF8000FD000000
  width := 640
  height := 480
  pitch := 2560
  bpp := 32
  width_lt := by decide
  height_lt := by decide

theorem sampleScreen_in : DisplayIn sampleBoot sampleFramebufferRegion sampleScreen where
  region := by decide
  mapped := by decide
  low := by decide
  high := by decide
  guard := by
    intro i hi
    have hlt : i < 1228800 := hi
    show (0xFFFF8000FD000000 + i) / PAGE_SIZE ≠ 0xFFFF800000180000 / PAGE_SIZE
    unfold PAGE_SIZE
    omega

/-- The writer that `init_kwriter` sets up on a black screen. -/
def sampleWriter : VGAWriter :=
  .new (view sampleScreen (by decide) fun _ => 0#8) true 0xAAAAAA#32 0#32

/-- The last byte of the screen is stored where it was, and a line that is printed leaves
    the loader's memory alone. -/
theorem display_kept_sample :
    ∃ c heapVirt root pt', prepareMemory sampleBoot sampleState.mem = .ok (.ok (c, heapVirt))
      ∧ c.recPageTable.load = .ok (pt', root)
      ∧ storePlace c.mem root 0xFFFF8000FD12BFFF = some 0xFD12BFFF
      ∧ Apart sampleBoot c 0xFD12BFFF
      ∧ ∃ w' phys', textRun [.writeString "Hi\n"] sampleWriter = .ok w'
        ∧ storeBytes (storePlace c.mem root) 0xFFFF8000FD000000
          (w'.lfb.buffer.flatMap Layout.encode) (fun _ => 0#8) = some phys'
        ∧ phys' 0x100000 = 0#8 := by
  obtain ⟨c, heapVirt, h⟩ := prepareMemory_total sampleBoot_bootable sampleState.mem
  have hlarge : sampleBoot.heapEnd + sampleBoot.bootFrames * PAGE_SIZE
      ≤ sampleUsable.base + sampleUsable.length := by
    refine (bootFrames_le sampleBoot).trans ?_
    rw [sampleBoot_bootLimit]
    decide
  obtain ⟨root, pt', hload, hplace, hprint⟩ := display_kept sampleBoot sampleState.mem c heapVirt
    sampleUsable sampleFramebufferRegion sampleScreen sampleBoot_stackOutside
    sampleBoot_bootable.room sampleBoot_mapOk h sampleBoot_bootable.allocator hlarge
    sampleScreen_in
  obtain ⟨hlast, hapart⟩ := hplace 1228799 (by decide)
  obtain ⟨w', phys', hrun, hstored, -, houtside⟩ := hprint sampleWriter [.writeString "Hi\n"]
    (fun _ => 0#8) rfl rfl ⟨by decide, by decide⟩
  refine ⟨c, heapVirt, root, pt', h, hload, hlast, hapart, w', phys', hrun, hstored,
    houtside 0x100000 ?_⟩
  rintro ⟨hlo, -⟩
  revert hlo
  decide

end KermolDisplaySpace
