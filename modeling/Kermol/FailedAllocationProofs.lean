import Kermol.AllocDecisionProofs
import Kermol.MapFailureProofs
import Kermol.PagingControllerProofs

/-! # Failed allocations of the controller

    An allocation takes frames, takes virtual pages and maps the ones to the
    others.  Each step can fail and none undoes the steps before it.  A failure
    of the first step leaves everything; after a later one the windows that were
    taken stay marked.

    Whether a request fails late can be read off the state before it: the bits
    of the two bitmaps say which windows it takes and whether there are any
    (`View.Serves`, `View.Refuses`), the tables say which page the mapping stops
    at (`MapStops`).  `failed_allocation_unharmed_iff` puts these together: a
    failure leaves everything as it was if and only if no request that took
    something can fail. -/

namespace KermolFailedAllocation

open RustEffect X86Paging KermolFrameAllocator KermolPageTable KermolBitmap
open KermolPageTree KermolPageTableRun KermolBitmapScan KermolFrameBitmap ByteBits
open KermolBootTables KermolContiguous KermolAllocDecision KermolTableDemand
open KermolController KermolMapFailure RadixTree

/-! ## What a failed allocation must leave -/

/-- What a failed allocation must leave: whatever was free is free, apart from
    the frames of new tables, and every address translates as before. -/
structure Unharmed (c c' : KernelPagingController) : Prop where
  frames : ∀ f, bitAt c.frameAllocator.bits.bitmap f = false →
    bitAt c'.frameAllocator.bits.bitmap f = true → c.NewTable c' f
  pages : ∀ i, bitAt c.virtMemAllocator.bits.bitmap i = false →
    bitAt c'.virtMemAllocator.bits.bitmap i = false
  translate : ∀ v, c'.translate v = c.translate v

/-- The same behind the lock. -/
def UnharmedKernel (k k' : Kernel) : Prop :=
  (k = none ∧ k' = none) ∨ ∃ c c', k = some c ∧ k' = some c' ∧ Unharmed c c'

/-- Every `Err` of the operation leaves the controller unharmed. -/
def FailsSafely {α : Type}
    (op : KernelPagingController → Fallible MemoryError KernelPagingController α)
    (c : KernelPagingController) : Prop :=
  ∀ e c', op c = .ok (.error e, c') → Unharmed c c'

/-- The same behind the lock. -/
def FailsSafelyLocked {α : Type} (op : Kernel → Fallible MemoryError Kernel α)
    (k : Kernel) : Prop :=
  ∀ e k', op k = .ok (.error e, k') → UnharmedKernel k k'

/-! ## The frames that become tables -/

section Frames

variable {offset : Nat} {fa fa' : BitmapFrameAllocator} {gs : List PhysAddr} {v : View}

/-- The view after the frames `gs` were handed out, one after the other. -/
def marked : View → List PhysAddr → View
  | v, [] => v
  | v, g :: gs => marked (v.mark g.addr 1) gs

/-- Requests for one frame are served with the frames `gs`, one after the other,
    and each of them can hold a table.  The number of the bit is the address. -/
def Serving (offset : Nat) : View → List PhysAddr → Prop
  | _, [] => True
  | v, g :: gs => v.Serves 1 g.addr ∧ g.addr % PAGE_SIZE = 0 ∧ IsCanonical (g.addr + offset)
      ∧ Serving offset (v.mark g.addr 1) gs

theorem frame_alloc_iff {g : PhysAddr} :
    FrameAllocator.alloc fa = .ok (.ok g, fa') ↔ fa.bits.alloc 1 = .ok (.ok g.addr, fa'.bits) := by
  constructor
  · intro h
    rcases framesAlloc_cases h with ⟨e, he, -⟩ | ⟨s, p, hp, hs, halloc⟩
    · cases he
    · cases hp
      rwa [hs]
  · intro h
    show fa.allocContiguous 1 = _
    rw [BitmapFrameAllocator.allocContiguous, h, ok_bind]
    have hg : PhysAddr.new g.addr = .ok g := PhysAddr.new_eq_ok.mpr rfl
    dsimp only
    rw [hg, ok_bind]
    rfl

theorem failed_iff : Failed fa fa' ↔ ∃ e, fa.bits.alloc 1 = .ok (.error e, fa'.bits) := by
  constructor
  · rintro ⟨e, h⟩
    rcases framesAlloc_cases h with ⟨e', -, halloc⟩ | ⟨s, p, hp, -⟩
    · exact ⟨e', halloc⟩
    · cases hp
  · rintro ⟨e, h⟩
    refine ⟨e, ?_⟩
    show fa.allocContiguous 1 = _
    rw [BitmapFrameAllocator.allocContiguous, h, ok_bind]
    rfl

/-- The allocator is at its end when the view refuses one frame. -/
theorem exhausted_iff : Exhausted fa ↔ (view fa.bits).Refuses 1 := by
  rw [← alloc_err_iff Nat.zero_lt_one]
  constructor
  · rintro ⟨fa', h⟩
    obtain ⟨e, halloc⟩ := failed_iff.mp h
    exact ⟨e, fa'.bits, halloc⟩
  · rintro ⟨e, bits, halloc⟩
    exact ⟨⟨bits⟩, failed_iff.mpr ⟨e, halloc⟩⟩

theorem granted_serving :
    ∀ {gs : List PhysAddr} {fa : BitmapFrameAllocator}, Granted offset gs fa fa' →
      Serving offset (view fa.bits) gs ∧ view fa'.bits = marked (view fa.bits) gs := by
  intro gs
  induction gs with
  | nil =>
      intro fa h
      cases h
      exact ⟨trivial, rfl⟩
  | cons g gs ih =>
      rintro fa ⟨fa₁, ha, hal, hcan, hrest⟩
      have halloc := frame_alloc_iff.mp ha
      obtain ⟨hserving, hview⟩ := ih hrest
      rw [view_alloc Nat.zero_lt_one halloc] at hserving hview
      exact ⟨⟨(alloc_ok_iff Nat.zero_lt_one).mp ⟨_, halloc⟩, hal, hcan, hserving⟩, hview⟩

theorem serving_granted :
    ∀ {gs : List PhysAddr} (fa : BitmapFrameAllocator), Serving offset (view fa.bits) gs →
      ∃ fa', Granted offset gs fa fa' := by
  intro gs
  induction gs with
  | nil =>
      intro fa _
      exact ⟨fa, rfl⟩
  | cons g gs ih =>
      rintro fa ⟨hserves, hal, hcan, hrest⟩
      obtain ⟨bits, halloc⟩ := (alloc_ok_iff Nat.zero_lt_one).mpr hserves
      obtain ⟨fa', hgranted⟩ := ih ⟨bits⟩ (by
        rw [view_alloc Nat.zero_lt_one halloc]
        exact hrest)
      exact ⟨fa', ⟨bits⟩, frame_alloc_iff.mpr halloc, hal, hcan, hgranted⟩

/-- No frame is handed out twice. -/
theorem serving_distinct :
    ∀ {gs : List PhysAddr} {v : View}, Serving offset v gs →
      (gs.map PhysAddr.addr).Nodup ∧ ∀ g ∈ gs, v.used g.addr = false := by
  intro gs
  induction gs with
  | nil => exact fun _ => ⟨List.nodup_nil, nofun⟩
  | cons g gs ih =>
      rintro v ⟨hserves, -, -, hrest⟩
      obtain ⟨hnodup, hclear⟩ := ih hrest
      have hlater : ∀ g' ∈ gs, v.used g'.addr = false ∧ g'.addr ≠ g.addr := by
        intro g' hg'
        have hbit := hclear g' hg'
        rw [View.mark, Bool.or_eq_false_iff, decide_eq_false_iff_not] at hbit
        exact ⟨hbit.1, by omega⟩
      refine ⟨List.nodup_cons.mpr ⟨fun hin => ?_, hnodup⟩, fun g' hg' => ?_⟩
      · obtain ⟨g', hg', heq⟩ := List.mem_map.mp hin
        exact (hlater g' hg').2 heq
      · rcases List.mem_cons.mp hg' with rfl | hg'
        · exact hserves.clear (by omega) (Nat.le_refl _) (Nat.lt_succ_self _)
        · exact (hlater g' hg').1

end Frames

/-! ## The condition, on the state before the request -/

/-- The frames, as the allocator sees them. -/
def frames (c : KernelPagingController) : View := view c.frameAllocator.bits

/-- The virtual pages, as the allocator sees them. -/
def virtPages (c : KernelPagingController) : View := view c.virtMemAllocator.bits

/-- The address of page `t` of the allocator's area. -/
def areaPage (t : Nat) : Nat := PAGE_ALLOCATOR_START.addr + t * PAGE_SIZE

/-- The tables and the frame bitmap make the mapping of `pages` pages stop at page
    `i`, with the frames `gs` linked as tables. -/
structure MapStops (pt : RecursivePageTable) (root : PhysAddr) (mem : PhysMem) (fr : View)
    (phys virt pages i : Nat) (gs : List PhysAddr) : Prop where
  size : pages * PAGE_SIZE < 2 ^ 64
  page : i < pages
  served : Serving pt.internalOffset fr gs
  stops : StopsAt root mem (pagesFrom phys virt i) (pageAt phys virt i) gs.length
    ((marked fr gs).Refuses 1)

/-- By then nothing was linked, and the pages before had got the empty entry. -/
def NothingDone (phys : Nat) (flags : PageTableFlags) (i : Nat) (gs : List PhysAddr) : Prop :=
  gs = [] ∧ ∀ j < i, (entryAt (phys + j * PAGE_SIZE) flags).isUnused = true

/-- A request for pages at `phys` cannot fail behind a window of free pages, nor
    with a part of it mapped. -/
def ReserveSafe (c : KernelPagingController) (root : PhysAddr) (phys pages : Nat)
    (flags : PageTableFlags) : Prop :=
  ∀ t, (virtPages c).Serves pages t →
    ∀ i gs, MapStops c.recPageTable root c.mem (frames c) phys (areaPage t) pages i gs →
      (virtPages c).Taken t pages ∧ NothingDone phys flags i gs

/-- A request for frames and pages cannot fail behind a window of free frames or
    of free pages, nor with a part of it mapped. -/
def AllocSafe (c : KernelPagingController) (root : PhysAddr) (pages : Nat)
    (flags : PageTableFlags) : Prop :=
  ∀ s, (frames c).Serves pages s → s < 2 ^ 52 →
    ((virtPages c).Refuses pages → (frames c).Taken s pages)
    ∧ ∀ t, (virtPages c).Serves pages t →
      ∀ i gs, MapStops c.recPageTable root c.mem ((frames c).mark s pages) s (areaPage t) pages i gs →
        (frames c).Taken s pages ∧ (virtPages c).Taken t pages ∧ NothingDone s flags i gs

/-- What the mapping relies on: the tables form a tree that the recursive slot
    shows, and no frame that would be linked as a table is one already. -/
structure SoundTables (c : KernelPagingController) (root : PhysAddr) (fr : View)
    (virt pages : Nat) : Prop where
  wf : TreeWF c.recPageTable root c.mem
  fresh : ∀ gs, Serving c.recPageTable.internalOffset fr gs →
    gs.length ≤ tablesMissing root c.mem ((List.range pages).map fun i => virt + i * PAGE_SIZE) →
    ∀ g ∈ gs, g.addr ∉ c.tableFrames

/-- The same for a request for pages; it says nothing of the tables where there
    are no pages to map. -/
def ReserveSound (c : KernelPagingController) (root : PhysAddr) (pages : Nat) : Prop :=
  ∀ t, (virtPages c).Serves pages t → SoundTables c root (frames c) (areaPage t) pages

/-- The same for a request for frames and pages. -/
def AllocSound (c : KernelPagingController) (root : PhysAddr) (pages : Nat) : Prop :=
  ∀ s t, (frames c).Serves pages s → (virtPages c).Serves pages t →
    SoundTables c root ((frames c).mark s pages) (areaPage t) pages

/-- Nothing is asked of the tables where a bitmap refuses the request. -/
theorem allocSound_of_refuses {c : KernelPagingController} {root : PhysAddr} {pages : Nat}
    (hpos : 0 < pages) (h : (frames c).Refuses pages ∨ (virtPages c).Refuses pages) :
    AllocSound c root pages := by
  intro s t hs ht
  rcases h with hframes | hvirt
  · exact absurd hs (not_serves_of_refuses hpos hframes)
  · exact absurd ht (not_serves_of_refuses hpos hvirt)

/-! ## The mapping -/

section Mapping

variable {c c' : KernelPagingController} {root phys : PhysAddr} {virt : VirtAddr}
  {pages i : Nat} {flags : PageTableFlags} {gs : List PhysAddr}

/-- What is left of `c` behind a mapping that stopped at page `i`. -/
structure MapLeft (c c' : KernelPagingController) (phys : Nat) (flags : PageTableFlags)
    (i : Nat) (gs : List PhysAddr) : Prop where
  virt : c'.virtMemAllocator = c.virtMemAllocator
  translate_iff : (∀ v, c'.translate v = c.translate v) ↔ NothingDone phys flags i gs
  frames : gs = [] → c'.frameAllocator.bits.bitmap = c.frameAllocator.bits.bitmap
  tables : gs = [] → c'.tableFrames = c.tableFrames

theorem addressesOf_pagesFrom (phys virt n : Nat) :
    addressesOf (pagesFrom phys virt n) = (List.range n).map fun i => virt + i * PAGE_SIZE := by
  rw [addressesOf, pagesFrom, List.map_map]
  rfl

/-- The contract of the allocator, from the bits. -/
theorem SoundTables.grants (h : SoundTables c root (frames c) virt.addr pages) :
    FreshGrants c.recPageTable.internalOffset
      (tablesMissing root c.mem (addressesOf (pagesFrom phys.addr virt.addr pages)))
      (tables root c.mem) c.frameAllocator := by
  intro gs fa hg hlen
  obtain ⟨hserving, -⟩ := granted_serving hg
  rw [addressesOf_pagesFrom] at hlen
  refine ⟨(serving_distinct hserving).1, ?_⟩
  rw [← KernelPagingController.tableFrames_eq h.wf]
  exact h.fresh gs hserving hlen

theorem MapLeft.of_stopped {s' : PagingState BitmapFrameAllocator}
    (hwf : TreeWF c.recPageTable root c.mem)
    (hmap : ∀ d ∈ pagesFrom phys.addr virt.addr i, Mappable d)
    (h : Stopped c.recPageTable root flags (pagesFrom phys.addr virt.addr i)
      (pageAt phys.addr virt.addr i) gs ⟨c.mem, c.frameAllocator⟩ s') :
    MapLeft c { c with mem := s'.mem, frameAllocator := s'.alloc } phys.addr flags i gs where
  virt := rfl
  translate_iff := by
    have hiff := h.unchanged_iff hwf hmap
    have hpages : (∀ d ∈ pagesFrom phys.addr virt.addr i, (entryAt d.1 flags).isUnused = true)
        ↔ ∀ j < i, (entryAt (phys.addr + j * PAGE_SIZE) flags).isUnused = true := by
      simp [pagesFrom]
    rw [NothingDone, ← hpages]
    exact hiff
  frames := by
    rintro rfl
    obtain ⟨fa, hlinked, hleft⟩ := h.linked
    have hfa : fa = c.frameAllocator := hlinked.granted
    rcases hleft with heq | hfailed
    · rw [heq, hfa]
    · obtain ⟨e, halloc⟩ := failed_iff.mp hfailed
      rw [hfa] at halloc
      exact alloc_err halloc
  tables := by
    rintro rfl
    obtain ⟨fa, hlinked, -⟩ := h.linked
    have htables := hlinked.tables_eq
    rw [show placesOf [] = ∅ by simp [placesOf], Set.union_empty] at htables
    have hwf' : TreeWF c.recPageTable root s'.mem := hlinked.wf
    rw [KernelPagingController.tableFrames_eq hwf, ← htables]
    exact KernelPagingController.tableFrames_eq (c := { c with mem := s'.mem, frameAllocator := s'.alloc }) hwf'

/-- **A MAPPING THAT FAILED** stopped where the state before it says. -/
theorem map_err (c : KernelPagingController) {e : MemoryError}
    (hsound : SoundTables c root (frames c) virt.addr pages)
    (h : c.map phys virt pages flags = .ok (.error e, c')) :
    ∃ i gs, MapStops c.recPageTable root c.mem (frames c) phys.addr virt.addr pages i gs
      ∧ MapLeft c c' phys.addr flags i gs := by
  rw [KernelPagingController.map] at h
  match hx : c.recPageTable.mapContiguous pages phys virt flags ⟨c.mem, c.frameAllocator⟩, h with
  | .ok (.error e', s'), h =>
      cases h
      obtain ⟨hsize, i, hi, gs, fa, hg, hstop, hstopped⟩ :=
        mapContiguous_err hsound.wf hsound.grants hx
      obtain ⟨hserving, hview⟩ := granted_serving hg
      rw [exhausted_iff, hview] at hstop
      exact ⟨i, gs, ⟨hsize, hi, hserving, hstop⟩,
        MapLeft.of_stopped hsound.wf hstop.mappable hstopped⟩
  | .ok (.ok (), s'), h => cases h

/-- **A MAPPING FAILS** where the state before it says. -/
theorem map_err_of (c : KernelPagingController) (virt : VirtAddr) (flags : PageTableFlags)
    (hsound : SoundTables c root (frames c) virt.addr pages)
    (h : MapStops c.recPageTable root c.mem (frames c) phys.addr virt.addr pages i gs) :
    ∃ e c', c.map phys virt pages flags = .ok (.error e, c')
      ∧ MapLeft c c' phys.addr flags i gs := by
  obtain ⟨fa, hg⟩ := serving_granted c.frameAllocator h.served
  obtain ⟨-, hview⟩ := granted_serving hg
  have hstop := h.stops
  rw [frames, ← hview, ← exhausted_iff] at hstop
  obtain ⟨e, s', hmap, hstopped⟩ := mapContiguous_err_of flags (p := phys) (a := virt)
    (s := ⟨c.mem, c.frameAllocator⟩) hsound.wf hsound.grants h.size h.page hg hstop
  refine ⟨.pagingError e, _, ?_, MapLeft.of_stopped hsound.wf hstop.mappable hstopped⟩
  rw [KernelPagingController.map, hmap]
  rfl

end Mapping

/-! ## The steps before the mapping -/

section Steps

variable {c c' c₁ : KernelPagingController} {root phys : PhysAddr} {virt : VirtAddr}
  {pages s t i : Nat} {flags : PageTableFlags} {gs : List PhysAddr} {e : MemoryError}

/-- A window that was in use is no different behind the request. -/
theorem mark_taken {v : View} {k : Nat} (h : v.Taken s k) : (v.mark s k).used = v.used := by
  funext j
  show (v.used j || _) = _
  by_cases hin : s ≤ j ∧ j < s + k
  · rw [h j hin.1 hin.2, Bool.true_or]
  · rw [decide_eq_false hin, Bool.or_false]

/-- A window without a free bit was in use. -/
theorem taken_of_mark {v : View} {k : Nat}
    (h : ∀ j, v.used j = false → (v.mark s k).used j = false) : v.Taken s k := by
  intro j hlo hhi
  by_contra hclear
  have hbit : (v.used j || decide (s ≤ j ∧ j < s + k)) = false :=
    h j (Bool.eq_false_iff.mpr hclear)
  rw [decide_eq_true ⟨hlo, hhi⟩, Bool.or_true] at hbit
  cases hbit

/-- The pages step, from the state before it. -/
theorem virt_step_ok (hpos : 0 < pages)
    (h : c.withVirt (c.virtMemAllocator.allocContiguous pages) = .ok (.ok virt, c₁)) :
    ∃ t va, (virtPages c).Serves pages t ∧ virt.addr = areaPage t
      ∧ c₁ = { c with virtMemAllocator := va }
      ∧ view va.bits = (virtPages c).mark t pages := by
  obtain ⟨va, hva, rfl⟩ := withVirt_eq_ok h
  rcases virtAlloc_cases hva with ⟨e, he, -⟩ | ⟨t, v, hv, haddr, halloc⟩
  · cases he
  · cases hv
    exact ⟨t, va, (alloc_ok_iff hpos).mp ⟨_, halloc⟩, haddr, rfl, view_alloc hpos halloc⟩

theorem virt_step_ok_of (virt : VirtAddr) (hpos : 0 < pages)
    (hserves : (virtPages c).Serves pages t) (hvirt : virt.addr = areaPage t) :
    ∃ va, c.withVirt (c.virtMemAllocator.allocContiguous pages)
        = .ok (.ok virt, { c with virtMemAllocator := va })
      ∧ view va.bits = (virtPages c).mark t pages := by
  obtain ⟨bits, halloc⟩ := (alloc_ok_iff hpos).mpr hserves
  have hadd : PAGE_ALLOCATOR_START.add (t * PAGE_SIZE) = .ok virt := VirtAddr.add_eq_ok.mpr hvirt
  refine ⟨⟨bits⟩, ?_, view_alloc hpos halloc⟩
  have hstep : c.virtMemAllocator.allocContiguous pages = .ok (.ok virt, ⟨bits⟩) := by
    rw [VirtualMemoryAllocator.allocContiguous, halloc, ok_bind]
    dsimp only
    rw [hadd, ok_bind]
    rfl
  rw [hstep]
  rfl

theorem virt_step_err (hpos : 0 < pages)
    (h : c.withVirt (c.virtMemAllocator.allocContiguous pages) = .ok (.error e, c')) :
    (virtPages c).Refuses pages ∧ ∃ va, c' = { c with virtMemAllocator := va }
      ∧ va.bits.bitmap = c.virtMemAllocator.bits.bitmap := by
  obtain ⟨va, hva, rfl⟩ := withVirt_eq_ok h
  rcases virtAlloc_cases hva with ⟨e', -, halloc⟩ | ⟨t, v, hv, -⟩
  · exact ⟨(alloc_err_iff hpos).mp ⟨_, _, halloc⟩, va, rfl, alloc_err halloc⟩
  · cases hv

theorem virt_step_err_of (hpos : 0 < pages) (hrefuses : (virtPages c).Refuses pages) :
    ∃ e va, c.withVirt (c.virtMemAllocator.allocContiguous pages)
        = .ok (.error e, { c with virtMemAllocator := va })
      ∧ va.bits.bitmap = c.virtMemAllocator.bits.bitmap := by
  obtain ⟨e, bits, halloc⟩ := (alloc_err_iff hpos).mpr hrefuses
  refine ⟨e, ⟨bits⟩, ?_, alloc_err halloc⟩
  rw [VirtualMemoryAllocator.allocContiguous, halloc]
  rfl

/-- The frames step likewise. -/
theorem frame_step_ok (hpos : 0 < pages)
    (h : c.withFrames (c.frameAllocator.allocContiguous pages) = .ok (.ok phys, c₁)) :
    (frames c).Serves pages phys.addr ∧ ∃ fa, c₁ = { c with frameAllocator := fa }
      ∧ view fa.bits = (frames c).mark phys.addr pages := by
  obtain ⟨fa, hfa, rfl⟩ := withFrames_eq_ok h
  rcases framesAlloc_cases hfa with ⟨e, he, -⟩ | ⟨s, p, hp, hs, halloc⟩
  · cases he
  · cases hp
    rw [← hs] at halloc
    exact ⟨(alloc_ok_iff hpos).mp ⟨_, halloc⟩, fa, rfl, view_alloc hpos halloc⟩

theorem frame_step_ok_of (phys : PhysAddr) (hpos : 0 < pages) (hserves : (frames c).Serves pages phys.addr) :
    ∃ fa, c.withFrames (c.frameAllocator.allocContiguous pages)
        = .ok (.ok phys, { c with frameAllocator := fa })
      ∧ view fa.bits = (frames c).mark phys.addr pages := by
  obtain ⟨bits, halloc⟩ := (alloc_ok_iff hpos).mpr hserves
  have hnew : PhysAddr.new phys.addr = .ok phys := PhysAddr.new_eq_ok.mpr rfl
  refine ⟨⟨bits⟩, ?_, view_alloc hpos halloc⟩
  have hstep : c.frameAllocator.allocContiguous pages = .ok (.ok phys, ⟨bits⟩) := by
    rw [BitmapFrameAllocator.allocContiguous, halloc, ok_bind]
    dsimp only
    rw [hnew, ok_bind]
    rfl
  rw [hstep]
  rfl

theorem frame_step_err
    (h : c.withFrames (c.frameAllocator.allocContiguous pages) = .ok (.error e, c')) :
    ∃ fa, c' = { c with frameAllocator := fa }
      ∧ fa.bits.bitmap = c.frameAllocator.bits.bitmap := by
  obtain ⟨fa, hfa, rfl⟩ := withFrames_eq_ok h
  rcases framesAlloc_cases hfa with ⟨e', -, halloc⟩ | ⟨s, p, hp, -⟩
  · exact ⟨fa, rfl, alloc_err halloc⟩
  · cases hp

/-! ## How the last two steps fail -/

/-- What is left of `c` when the pages step or the mapping fails. -/
inductive ReserveLeft (c : KernelPagingController) (root : PhysAddr) (phys pages : Nat)
    (flags : PageTableFlags) : KernelPagingController → Prop where
  | refused {va : VirtualMemoryAllocator} :
      (virtPages c).Refuses pages → va.bits.bitmap = c.virtMemAllocator.bits.bitmap →
      ReserveLeft c root phys pages flags { c with virtMemAllocator := va }
  | stopped {t i : Nat} {gs : List PhysAddr} {va : VirtualMemoryAllocator}
      {c' : KernelPagingController} :
      (virtPages c).Serves pages t → view va.bits = (virtPages c).mark t pages →
      MapStops c.recPageTable root c.mem (frames c) phys (areaPage t) pages i gs →
      MapLeft { c with virtMemAllocator := va } c' phys flags i gs →
      ReserveLeft c root phys pages flags c'

theorem reserve_err (hpos : 0 < pages) (hsound : ReserveSound c root pages)
    (h : c.reserveAndMap phys pages flags = .ok (.error e, c')) :
    ReserveLeft c root phys.addr pages flags c' := by
  rw [KernelPagingController.reserveAndMap] at h
  rcases andThen_cases h with ⟨e', hvirt, -⟩ | ⟨virt, c₁, hvirt, h⟩
  · obtain ⟨hrefuses, va, rfl, hbits⟩ := virt_step_err hpos hvirt
    exact ReserveLeft.refused hrefuses hbits
  · obtain ⟨t, va, hserves, haddr, rfl, hview⟩ := virt_step_ok hpos hvirt
    rcases andThen_cases h with ⟨e', hmap, -⟩ | ⟨_, c₂, -, h⟩
    · obtain ⟨hwf, hfresh⟩ := hsound t hserves
      rw [← haddr] at hfresh
      obtain ⟨i, gs, hstops, hleft⟩ :=
        map_err { c with virtMemAllocator := va } ⟨hwf, hfresh⟩ hmap
      rw [haddr] at hstops
      exact ReserveLeft.stopped hserves hview hstops hleft
    · cases h

theorem reserve_err_of_refuses (phys : PhysAddr) (flags : PageTableFlags) (hpos : 0 < pages)
    (hrefuses : (virtPages c).Refuses pages) :
    ∃ e va, c.reserveAndMap phys pages flags = .ok (.error e, { c with virtMemAllocator := va })
      ∧ va.bits.bitmap = c.virtMemAllocator.bits.bitmap := by
  obtain ⟨e, va, hstep, hbits⟩ := virt_step_err_of hpos hrefuses
  refine ⟨e, va, ?_, hbits⟩
  rw [KernelPagingController.reserveAndMap, hstep, andThen_err]

theorem reserve_err_of_stops (phys : PhysAddr) (flags : PageTableFlags) (hpos : 0 < pages)
    (hsound : ReserveSound c root pages) (hserves : (virtPages c).Serves pages t)
    (hstops : MapStops c.recPageTable root c.mem (frames c) phys.addr (areaPage t) pages i gs) :
    ∃ e va c', c.reserveAndMap phys pages flags = .ok (.error e, c')
      ∧ view va.bits = (virtPages c).mark t pages
      ∧ MapLeft { c with virtMemAllocator := va } c' phys.addr flags i gs := by
  -- the page it stops at has an address, so the first one has
  obtain ⟨w, hw, -⟩ := hstops.stops.why
  have hcan : IsCanonical (areaPage t) := by
    have hcanonical := w.canonical
    have hstart : PAGE_ALLOCATOR_START.addr = 0xFFFFE00000000000 := rfl
    rw [hw] at hcanonical
    unfold IsCanonical pageAt areaPage at *
    dsimp only at hcanonical
    omega
  obtain ⟨va, hstep, hview⟩ := virt_step_ok_of ⟨areaPage t, hcan⟩ hpos hserves rfl
  obtain ⟨hwf, hfresh⟩ := hsound t hserves
  obtain ⟨e, c', hmap, hleft⟩ := map_err_of { c with virtMemAllocator := va }
    ⟨areaPage t, hcan⟩ flags ⟨hwf, hfresh⟩ hstops
  refine ⟨e, va, c', ?_, hview, hleft⟩
  rw [KernelPagingController.reserveAndMap, hstep, andThen_ok, hmap, andThen_err]

/-! ## Reading the harm off what is left -/

/-- Equal bitmaps and equal translations. -/
theorem unharmed_of_eq
    (hframes : (frames c').used = (frames c).used)
    (hvirt : (virtPages c').used = (virtPages c).used)
    (htranslate : ∀ v, c'.translate v = c.translate v) : Unharmed c c' where
  frames := by
    intro f hclear hset
    have hkept := (congrFun hframes f).trans hclear
    exact absurd hset (Bool.eq_false_iff.mp hkept)
  pages := by
    intro i hclear
    exact (congrFun hvirt i).trans hclear
  translate := htranslate

/-- A reservation that left `c'` did no harm only if the window of pages was in
    use before, and nothing was done behind it. -/
theorem reserve_unharmed {va : VirtualMemoryAllocator}
    (hview : view va.bits = (virtPages c).mark t pages)
    (hleft : MapLeft { c with virtMemAllocator := va } c' phys.addr flags i gs)
    (hpages : ∀ j, (virtPages c).used j = false → (virtPages c').used j = false)
    (htranslate : ∀ v, c'.translate v = c.translate v) :
    (virtPages c).Taken t pages ∧ NothingDone phys.addr flags i gs := by
  refine ⟨taken_of_mark fun j hclear => ?_, hleft.translate_iff.mp htranslate⟩
  have hkept := hpages j hclear
  rw [virtPages, hleft.virt, hview] at hkept
  exact hkept

/-! ## The last two steps -/

/-- **RESERVING** fails safely when no request that took something can fail. -/
theorem reserve_safe_iff (hpos : 0 < pages) (hsound : ReserveSound c root pages) :
    FailsSafely (·.reserveAndMap phys pages flags) c
      ↔ ReserveSafe c root phys.addr pages flags := by
  constructor
  · intro hsafe t hserves i gs hstops
    obtain ⟨e, va, c', herr, hview, hleft⟩ :=
      reserve_err_of_stops phys flags hpos hsound hserves hstops
    have hun := hsafe e c' herr
    exact reserve_unharmed hview hleft hun.pages hun.translate
  · intro hsafe e c' herr
    cases reserve_err hpos hsound herr with
    | refused hrefuses hbits =>
        exact unharmed_of_eq rfl (congrArg bitAt hbits) fun _ => rfl
    | stopped hserves hview hstops hleft =>
        obtain ⟨htaken, hnothing⟩ := hsafe _ hserves _ _ hstops
        refine unharmed_of_eq (congrArg bitAt (hleft.frames hnothing.1)) ?_
          (hleft.translate_iff.mpr hnothing)
        rw [virtPages, hleft.virt, hview, mark_taken htaken]

/-! ## The three steps -/

section Allocate

variable {fa : BitmapFrameAllocator}

/-- The last two steps start behind the marked frames. -/
theorem AllocSound.reserve (h : AllocSound c root pages) (hserves : (frames c).Serves pages s)
    (hview : view fa.bits = (frames c).mark s pages) :
    ReserveSound { c with frameAllocator := fa } root pages := by
  intro t ht
  obtain ⟨hwf, hfresh⟩ := h s t hserves ht
  rw [← hview] at hfresh
  exact ⟨hwf, hfresh⟩

theorem allocate_err_of
    (hframes : c.withFrames (c.frameAllocator.allocContiguous pages) = .ok (.ok phys, c₁))
    (herr : c₁.reserveAndMap phys pages flags = .ok (.error e, c')) :
    c.allocate pages flags = .ok (.error e, c') := by
  rw [KernelPagingController.allocate, hframes, andThen_ok, herr, andThen_err]

/-- An allocation that did no harm and linked no table had taken frames in use. -/
theorem frames_taken (hview : view fa.bits = (frames c).mark s pages) (h : Unharmed c c')
    (hbits : c'.frameAllocator.bits.bitmap = fa.bits.bitmap)
    (htables : c'.tableFrames = c.tableFrames) : (frames c).Taken s pages := by
  refine taken_of_mark fun j hclear => ?_
  rw [← hview]
  show bitAt fa.bits.bitmap j = false
  rw [← hbits]
  by_contra hset
  obtain ⟨n, hn, hnot, -⟩ := h.frames j hclear (eq_true_of_ne_false hset)
  rw [htables] at hn
  exact hnot hn

theorem allocSafe_of (hpos : 0 < pages) (hsound : AllocSound c root pages)
    (hsafe : FailsSafely (·.allocate pages flags) c) :
    AllocSafe c root pages flags := by
  intro s hserves hlt
  obtain ⟨fa, hframes, hview⟩ := frame_step_ok_of ⟨s, hlt⟩ hpos hserves
  constructor
  · intro hrefuses
    obtain ⟨e, va, herr, -⟩ := reserve_err_of_refuses (c := { c with frameAllocator := fa })
      ⟨s, hlt⟩ flags hpos hrefuses
    exact frames_taken hview (hsafe e _ (allocate_err_of hframes herr)) rfl rfl
  · intro t ht i gs hstops
    rw [← hview] at hstops
    obtain ⟨e, va, c', herr, hva, hleft⟩ := reserve_err_of_stops
      (c := { c with frameAllocator := fa }) ⟨s, hlt⟩ flags hpos (hsound.reserve hserves hview)
      ht hstops
    have hun := hsafe e c' (allocate_err_of hframes herr)
    obtain ⟨hpages, hnothing⟩ := reserve_unharmed hva hleft hun.pages hun.translate
    exact ⟨frames_taken hview hun (hleft.frames hnothing.1) (hleft.tables hnothing.1), hpages,
      hnothing⟩

theorem allocate_safe (hpos : 0 < pages) (hsound : AllocSound c root pages)
    (hsafe : AllocSafe c root pages flags) :
    FailsSafely (·.allocate pages flags) c := by
  intro e c' herr
  have hsteps : c.allocate pages flags = .ok (.error e, c') := herr
  rw [KernelPagingController.allocate] at hsteps
  rcases andThen_cases hsteps with ⟨e', hframes, -⟩ | ⟨phys, c₁, hframes, hrest⟩
  · obtain ⟨fa, rfl, hbits⟩ := frame_step_err hframes
    exact unharmed_of_eq (congrArg bitAt hbits) rfl fun _ => rfl
  · obtain ⟨hserves, fa, rfl, hview⟩ := frame_step_ok hpos hframes
    obtain ⟨hrefusal, hstopping⟩ := hsafe phys.addr hserves phys.valid
    rcases andThen_cases hrest with ⟨e', hreserve, -⟩ | ⟨_, c₂, -, h⟩
    · cases reserve_err (c := { c with frameAllocator := fa }) hpos
        (hsound.reserve hserves hview) hreserve with
      | refused hrefuses hbits =>
          refine unharmed_of_eq ?_ (congrArg bitAt hbits) fun _ => rfl
          show (view fa.bits).used = _
          rw [hview, mark_taken (hrefusal hrefuses)]
      | stopped ht hva hstops hleft =>
          rw [frames, hview] at hstops
          obtain ⟨hframe, hpage, hnothing⟩ := hstopping _ ht _ _ hstops
          refine unharmed_of_eq ?_ ?_ (hleft.translate_iff.mpr hnothing)
          · have hbits : (frames c').used = (view fa.bits).used :=
              congrArg bitAt (hleft.frames hnothing.1)
            rw [hbits, hview, mark_taken hframe]
          · rw [virtPages, hleft.virt]
            exact (congrArg View.used hva).trans (mark_taken hpage)
    · cases h

/-- `alloc_and_map` fails as the three steps do. -/
theorem allocAndMap_safe_iff :
    FailsSafely (·.allocAndMap pages flags) c ↔ FailsSafely (·.allocate pages flags) c := by
  constructor
  · intro h e c' herr
    have halloc : c.allocate pages flags = .ok (.error e, c') := herr
    apply h e c'
    show c.allocAndMap pages flags = _
    rw [KernelPagingController.allocAndMap, halloc, andThen_err]
  · intro h e c' herr
    rcases andThen_cases herr with ⟨e', halloc, -⟩ | ⟨_, c₁, -, h'⟩
    · exact h e' c' halloc
    · cases h'

end Allocate

/-! ## A request for nothing -/

/-- A request for no bits leaves the bitmap. -/
theorem alloc_zero_kept {a a' : BitmapAllocator} {r : Except MemoryError Nat}
    (h : a.alloc 0 = .ok (r, a')) : a'.bitmap = a.bitmap := by
  cases r with
  | error e => exact alloc_err h
  | ok s => exact (alloc_zero h).2

/-- Mapping no pages returns `Ok` and does nothing. -/
theorem map_zero (phys : PhysAddr) (virt : VirtAddr) :
    c.map phys virt 0 flags = .ok (.ok (), c) := by
  rw [KernelPagingController.map, RecursivePageTable.mapContiguous, if_pos (by decide),
    List.range_zero, forEach_nil]
  rfl

/-- Reserving no pages leaves everything but the cursor. -/
theorem reserve_zero (h : c.reserveAndMap phys 0 flags = .ok (.error e, c')) :
    ∃ va, c' = { c with virtMemAllocator := va }
      ∧ va.bits.bitmap = c.virtMemAllocator.bits.bitmap := by
  rw [KernelPagingController.reserveAndMap] at h
  rcases andThen_cases h with ⟨e', hvirt, -⟩ | ⟨virt, c₁, -, h⟩
  · obtain ⟨va, hva, rfl⟩ := withVirt_eq_ok hvirt
    rcases virtAlloc_cases hva with ⟨e'', -, halloc⟩ | ⟨t, v, hv, -⟩
    · exact ⟨va, rfl, alloc_zero_kept halloc⟩
    · cases hv
  · rw [map_zero, andThen_ok] at h
    cases h

theorem allocate_zero_safe : FailsSafely (·.allocate 0 flags) c := by
  intro e c' herr
  have hsteps : c.allocate 0 flags = .ok (.error e, c') := herr
  rw [KernelPagingController.allocate] at hsteps
  rcases andThen_cases hsteps with ⟨e', hframes, -⟩ | ⟨phys, c₁, hframes, hrest⟩
  · obtain ⟨fa, rfl, hbits⟩ := frame_step_err hframes
    exact unharmed_of_eq (congrArg bitAt hbits) rfl fun _ => rfl
  · obtain ⟨fa, hfa, rfl⟩ := withFrames_eq_ok hframes
    rcases framesAlloc_cases hfa with ⟨e', he, -⟩ | ⟨s, p, -, -, halloc⟩
    · cases he
    · rcases andThen_cases hrest with ⟨e', hreserve, -⟩ | ⟨_, c₂, -, h⟩
      · obtain ⟨va, rfl, hbits⟩ := reserve_zero hreserve
        exact unharmed_of_eq (congrArg bitAt (alloc_zero_kept halloc)) (congrArg bitAt hbits)
          fun _ => rfl
      · cases h

end Steps

/-! ## Behind the lock -/

section Locked

variable {c : KernelPagingController} {size : Nat} {α : Type} {result : α → AllocatedMemory}
  {steps : KernelPagingController → Fallible MemoryError KernelPagingController α}

/-- Behind the lock the steps fail as they do on the controller; an empty
    request is refused first. -/
theorem sized_safe_iff :
    FailsSafelyLocked (AllocatedMemory.sized size steps result) (some c)
      ↔ size = 0 ∨ FailsSafely steps c := by
  by_cases hsize : size = 0
  · refine ⟨fun _ => Or.inl hsize, fun _ e k' herr => ?_⟩
    rw [AllocatedMemory.sized, if_pos hsize] at herr
    cases herr
    exact Or.inr ⟨c, c, rfl, rfl, unharmed_of_eq rfl rfl fun _ => rfl⟩
  · constructor
    · intro h
      right
      intro e c' herr
      have hlocked : AllocatedMemory.sized size steps result (some c)
          = .ok (.error e, some c') := by
        simp only [AllocatedMemory.sized, if_neg hsize, AllocatedMemory.withController, herr,
          andThen_err]
      rcases h e (some c') hlocked with ⟨hnone, -⟩ | ⟨c₁, c₂, hc₁, hc₂, hunharmed⟩
      · cases hnone
      · cases hc₁
        cases hc₂
        exact hunharmed
    · intro h e k' herr
      rw [AllocatedMemory.sized, if_neg hsize] at herr
      rcases andThen_cases herr with ⟨e', hctl, -⟩ | ⟨a, k₁, -, hrest⟩
      · rcases withController_eq_ok hctl with ⟨hnone, -⟩ | ⟨c₁, c₂, hc₁, rfl, hf⟩
        · cases hnone
        · cases hc₁
          exact Or.inr ⟨c, c₂, rfl, rfl, h.resolve_left hsize e' c₂ hf⟩
      · cases hrest

/-- Without a controller nothing can be taken. -/
theorem sized_safe_none :
    FailsSafelyLocked (AllocatedMemory.sized size steps result) none := by
  intro e k' herr
  rw [AllocatedMemory.sized] at herr
  split at herr
  · cases herr
    exact Or.inl ⟨rfl, rfl⟩
  · cases herr
    exact Or.inl ⟨rfl, rfl⟩

end Locked

/-- **WHEN A FAILED ALLOCATION LEAVES EVERYTHING AS IT WAS.**  Exactly when no
    request that took a free frame or page, linked a table or mapped a page can
    fail, which the bitmaps and the tables before the call decide. -/
theorem failed_allocation_unharmed_iff (c : KernelPagingController) (root phys : PhysAddr)
    (flags : PageTableFlags) :
    (∀ pages, AllocSound c root pages →
        (FailsSafely (·.allocAndMap pages flags) c ↔ pages = 0 ∨ AllocSafe c root pages flags))
      ∧ (∀ size, AllocSound c root (divCeilPages size) →
        (FailsSafelyLocked (AllocatedMemory.new size flags) (some c)
          ↔ size = 0 ∨ AllocSafe c root (divCeilPages size) flags))
      ∧ (∀ size, ReserveSound c root (divCeilPages size) →
        (FailsSafelyLocked (AllocatedMemory.reservePhysical phys size flags) (some c)
          ↔ size = 0 ∨ ReserveSafe c root phys.addr (divCeilPages size) flags))
      ∧ ∀ size, FailsSafelyLocked (AllocatedMemory.new size flags) none
          ∧ FailsSafelyLocked (AllocatedMemory.reservePhysical phys size flags) none := by
  refine ⟨fun pages hsound => ?_, fun size hsound => ?_, fun size hsound => ?_,
    fun size => ⟨sized_safe_none, sized_safe_none⟩⟩
  · rw [allocAndMap_safe_iff]
    rcases Nat.eq_zero_or_pos pages with rfl | hpos
    · exact iff_of_true allocate_zero_safe (Or.inl rfl)
    · rw [or_iff_right hpos.ne']
      exact ⟨allocSafe_of hpos hsound, allocate_safe hpos hsound⟩
  · by_cases hsize : size = 0
    · exact iff_of_true (sized_safe_iff.mpr (Or.inl hsize)) (Or.inl hsize)
    · have hpos := divCeilPages_pos hsize
      refine sized_safe_iff.trans ?_
      rw [or_iff_right hsize, or_iff_right hsize]
      exact ⟨allocSafe_of hpos hsound, allocate_safe hpos hsound⟩
  · by_cases hsize : size = 0
    · exact iff_of_true (sized_safe_iff.mpr (Or.inl hsize)) (Or.inl hsize)
    · refine sized_safe_iff.trans ?_
      rw [or_iff_right hsize, or_iff_right hsize]
      exact reserve_safe_iff (divCeilPages_pos hsize) hsound

/-! ### The sample controller -/

section Sample

variable {pt : RecursivePageTable} {root : PhysAddr} {mem : PhysMem}

/-- Two zero bytes serve two bits and, once, one bit at the start. -/
theorem sample_serves_one : (view (sampleBits 0#8)).Serves 1 0 :=
  (alloc_ok_iff Nat.zero_lt_one).mp ⟨_, rfl⟩

theorem sample_serves_two : (view (sampleBits 0#8)).Serves 2 0 :=
  (alloc_ok_iff Nat.zero_lt_two).mp ⟨_, rfl⟩

/-- Two full bytes, as `VirtualMemoryAllocator::new` leaves them, serve nothing. -/
theorem sample_refuses_one : (view (sampleBits 0xFF#8)).Refuses 1 :=
  (alloc_err_iff Nat.zero_lt_one).mp ⟨.allocationError, sampleBits 0xFF#8, by decide +kernel⟩

/-- The second page of the area. -/
def secondPage : VirtAddr := ⟨areaPage 1, by decide⟩

/-- Of the first two pages of the area only the second is mapped. -/
theorem sampleTables_area (htables : sampleTables = .ok (pt, mem)) (hwf : TreeWF pt root mem) :
    leafEntry root mem PAGE_ALLOCATOR_START = none ∧ leafEntry root mem secondPage ≠ none := by
  have hrun : (sampleTables >>= fun t =>
      t.1.translate t.2 PAGE_ALLOCATOR_START >>= fun first =>
        t.1.translate t.2 secondPage >>= fun second =>
          Except.ok (first.isNone, second.isNone)) = .ok (true, false) := by
    decide +kernel
  rw [htables, ok_bind] at hrun
  obtain ⟨first, hfirst, hrun⟩ := bind_eq_ok.mp hrun
  obtain ⟨second, hsecond, hrun⟩ := bind_eq_ok.mp hrun
  cases first with
  | some q => cases hrun
  | none =>
      refine ⟨(translate_eq_none (by decide) hwf).mp hfirst, fun hnone => ?_⟩
      rw [(translate_eq_none (by decide) hwf).mpr hnone] at hsecond
      cases hsecond
      cases hrun

/-- The level-1 table of the area exists. -/
theorem sampleTables_missing (htables : sampleTables = .ok (pt, mem)) (hwf : TreeWF pt root mem) :
    tablesMissing root mem [areaPage 0, areaPage 1] = 0 := by
  have hone : tablesMissing root mem [secondPage.addr] = 0 :=
    tablesMissing_mapped (by decide) hwf (sampleTables_area htables hwf).2
  have hblocks : blocks [areaPage 0, areaPage 1] = blocks [secondPage.addr] := by decide
  rw [tablesMissing, missingBlocks, hblocks]
  exact hone

/-- Two pages stop at the second: it is mapped already. -/
theorem sample_stops (htables : sampleTables = .ok (pt, mem)) (hwf : TreeWF pt root mem)
    (fr : View) : MapStops pt root mem fr 0 (areaPage 0) 2 1 [] where
  size := by decide
  page := by decide
  served := trivial
  stops := by
    obtain ⟨hfirst, hsecond⟩ := sampleTables_area htables hwf
    have hmissing := sampleTables_missing htables hwf
    refine ⟨?_, ?_, by decide, secondPage, rfl, Or.inl ⟨?_, Or.inr hsecond⟩⟩
    · intro d hd
      rw [List.mem_singleton.mp hd]
      exact ⟨by decide, by decide, PAGE_ALLOCATOR_START, rfl, by decide⟩
    · rintro v hv ⟨m, hm, hpage⟩
      rw [List.mem_singleton.mp hm] at hpage
      have hstart : v.page = PAGE_ALLOCATOR_START.page := hpage.symm
      rw [leafEntry_congr hstart]
      exact hfirst
    · have hle : tablesMissing root mem (addressesOf (pagesFrom 0 (areaPage 0) 1)) ≤ 0 :=
        le_of_le_of_eq (tablesMissing_mono (List.subset_append_left [areaPage 0] [areaPage 1]))
          hmissing
      exact (Nat.le_zero.mp hle).symm

/-- No table is missing for the two pages, so no frame becomes one. -/
theorem sample_sound (htables : sampleTables = .ok (pt, mem)) (hwf : TreeWF pt root mem)
    (fr : View) {t : Nat} (ht : (view (sampleBits 0#8)).Serves 2 t) :
    SoundTables (sampleController pt mem 0#8) root fr (areaPage t) 2 := by
  cases ht.unique sample_serves_two
  refine ⟨hwf, fun gs _ hlen g hg => ?_⟩
  have hnil : gs.length ≤ 0 := hlen.trans_eq (sampleTables_missing htables hwf)
  rw [List.length_eq_zero_iff.mp (Nat.le_zero.mp hnil)] at hg
  cases hg

/-- The first bit of two zero bytes was not in use. -/
theorem sample_not_taken {k : Nat} (hpos : 0 < k) : ¬ (view (sampleBits 0#8)).Taken 0 k := by
  intro htaken
  have hclear : (view (sampleBits 0#8)).used 0 = false := by decide
  rw [htaken 0 (Nat.le_refl _) (by omega)] at hclear
  cases hclear

/-- One frame is free, but no page is. -/
theorem sample_keeps_frame :
    ¬ AllocSafe (sampleController pt mem 0xFF#8) root 1 flagsRw :=
  fun hsafe => sample_not_taken Nat.zero_lt_one
    ((hsafe 0 sample_serves_one (by decide)).1 sample_refuses_one)

theorem failed_allocation_unharmed_iff_sample :
    ∃ pt mem, sampleTables = .ok (pt, mem)
      ∧ FailsSafely (·.allocAndMap 16 flagsRw) (sampleController pt mem 0xFF#8)
      ∧ ¬ FailsSafely (·.allocAndMap 1 flagsRw) (sampleController pt mem 0xFF#8)
      ∧ ¬ FailsSafely (·.allocAndMap 2 flagsRw) (sampleController pt mem 0#8)
      ∧ ¬ FailsSafelyLocked (AllocatedMemory.reservePhysical ⟨0, by decide⟩ 8192 flagsRw)
        (some (sampleController pt mem 0#8)) := by
  obtain ⟨pt, root, mem, htables, hwf⟩ := sampleTables_wf
  have hiff := fun byte => failed_allocation_unharmed_iff (sampleController pt mem byte) root
    ⟨0, by decide⟩ flagsRw
  refine ⟨pt, mem, htables, ?_, fun hfails => ?_, fun hfails => ?_, fun hfails => ?_⟩
  · -- sixteen frames are as many as there are
    have hrefuses : (view (sampleBits 0#8)).Refuses 16 := Or.inl (by decide)
    exact ((hiff 0xFF#8).1 16 (allocSound_of_refuses (by decide) (Or.inl hrefuses))).mpr
      (Or.inr fun s hserves => absurd hserves (not_serves_of_refuses (by decide) hrefuses))
  · -- a frame was free, and no page
    rcases ((hiff 0xFF#8).1 1 (allocSound_of_refuses (by decide) (Or.inr sample_refuses_one))).mp
      hfails with hzero | hsafe
    · cases hzero
    · exact sample_keeps_frame hsafe
  · -- the second page is mapped already
    rcases ((hiff 0#8).1 2 fun s t _ ht => sample_sound htables hwf _ ht).mp hfails with
      hzero | hsafe
    · cases hzero
    · exact sample_not_taken Nat.zero_lt_two ((hsafe 0 sample_serves_two (by decide)).2 0
        sample_serves_two 1 [] (sample_stops htables hwf _)).1
  · rcases ((hiff 0#8).2.2.1 8192 fun t ht => sample_sound htables hwf _ ht).mp hfails with
      hzero | hsafe
    · cases hzero
    · exact sample_not_taken Nat.zero_lt_two (hsafe 0 sample_serves_two 1 []
        (sample_stops htables hwf _)).1

theorem failed_allocation_keeps_frame :
    ∃ pt root mem, sampleTables = .ok (pt, mem) ∧ TreeWF pt root mem
      ∧ ¬ FailsSafely (·.allocAndMap 1 flagsRw) (sampleController pt mem 0xFF#8) := by
  obtain ⟨pt, root, mem, htables, hwf⟩ := sampleTables_wf
  refine ⟨pt, root, mem, htables, hwf, fun hfails => ?_⟩
  have hsound : AllocSound (sampleController pt mem 0xFF#8) root 1 :=
    allocSound_of_refuses (by decide) (Or.inr sample_refuses_one)
  exact sample_keeps_frame (allocSafe_of (by decide) hsound (allocAndMap_safe_iff.mp hfails))

end Sample

end KermolFailedAllocation
