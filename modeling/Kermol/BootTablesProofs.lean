import Mathlib.Data.Set.Card
import Kermol.PageTableRunProofs

/-! # Page tables at boot

    Until the bitmaps exist the page table takes its frames from the linear
    allocator.  `BootState` says what boot code knows of the tables after the
    mappings made so far: which page has which frame, and which tables exist.
    `map`, `unmap` and `update_flags` each have a lemma that carries it on, and
    `mapPages_boot` does so for a loop of mappings.

    The tables are then a matter of counting.  There is the level-4 table and
    one table for each block of 512 GiB, 1 GiB and 2 MiB that was touched
    (`tables_ncard`), and they fill the frames behind the cursor without a gap
    (`Grown`). -/

namespace KermolBootTables

open RustEffect X86Paging KermolFrameAllocator KermolPageTable KermolPageTree
open KermolMapStep KermolPageTableRun RadixTree

/-! ## Frames behind the cursor -/

/-- The frames from `lo` up to `hi`. -/
def framesFrom (lo hi : Nat) : Set Nat := {n | lo ≤ n ∧ n < hi ∧ n % PAGE_SIZE = 0}

theorem mem_framesFrom {lo hi n : Nat} :
    n ∈ framesFrom lo hi ↔ lo ≤ n ∧ n < hi ∧ n % PAGE_SIZE = 0 := Iff.rfl

theorem framesFrom_self (lo : Nat) : framesFrom lo lo = ∅ := by
  ext n
  rw [mem_framesFrom]
  simp
  omega

/-- Two neighbouring stretches of frames are one. -/
theorem framesFrom_append {lo mid hi : Nat} (h₁ : lo ≤ mid) (h₂ : mid ≤ hi) :
    framesFrom lo mid ∪ framesFrom mid hi = framesFrom lo hi := by
  ext n
  simp only [Set.mem_union, mem_framesFrom]
  omega

/-- The stretch of one frame. -/
theorem framesFrom_one {lo : Nat} (hal : lo % PAGE_SIZE = 0) :
    framesFrom lo (lo + PAGE_SIZE) = {lo} := by
  ext n
  rw [mem_framesFrom, Set.mem_singleton_iff]
  simp only [PAGE_SIZE] at *
  omega

theorem framesFrom_finite (lo hi : Nat) : (framesFrom lo hi).Finite :=
  (Set.finite_lt_nat hi).subset fun _ h => h.2.1

/-- The frames of a stretch, one by one. -/
theorem mem_framesFrom_iff {lo k n : Nat} (hal : lo % PAGE_SIZE = 0) :
    n ∈ framesFrom lo (lo + k * PAGE_SIZE) ↔ ∃ i < k, lo + i * PAGE_SIZE = n := by
  rw [mem_framesFrom]
  simp only [PAGE_SIZE] at *
  constructor
  · intro h
    exact ⟨(n - lo) / 4096, by omega, by omega⟩
  · rintro ⟨i, hi, rfl⟩
    omega

/-- The number of frames in a stretch. -/
theorem framesFrom_ncard {lo : Nat} (hal : lo % PAGE_SIZE = 0) (k : Nat) :
    (framesFrom lo (lo + k * PAGE_SIZE)).ncard = k := by
  have himage : framesFrom lo (lo + k * PAGE_SIZE)
      = (fun i => lo + i * PAGE_SIZE) '' (Finset.range k : Set Nat) := by
    ext n
    simp [mem_framesFrom_iff hal]
  have hinj : Set.InjOn (fun i => lo + i * PAGE_SIZE) (Finset.range k : Set Nat) := by
    intro i _ j _ h
    dsimp only at h
    unfold PAGE_SIZE at h
    omega
  rw [himage, hinj.ncard_image, Set.ncard_coe_finset, Finset.card_range]

/-- The tables of `s'` are those of `s` and every frame that the cursor passed,
    at most `k`. -/
structure Grown (root : PhysAddr) (k : Nat) (s s' : PagingState LinearFrameAllocator) :
    Prop where
  tables_eq : tables root s'.mem
    = tables root s.mem ∪ framesFrom s.alloc.cursor.addr s'.alloc.cursor.addr
  le : s.alloc.cursor.addr ≤ s'.alloc.cursor.addr
  bound : s'.alloc.cursor.addr ≤ s.alloc.cursor.addr + k * PAGE_SIZE

variable {pt : RecursivePageTable} {root : PhysAddr}
  {s s₁ s' : PagingState LinearFrameAllocator} {v : VirtAddr}

theorem Grown.of_same (k : Nat) (htables : tables root s'.mem = tables root s.mem)
    (halloc : s'.alloc = s.alloc) : Grown root k s s' where
  tables_eq := by rw [htables, halloc, framesFrom_self, Set.union_empty]
  le := by rw [halloc]
  bound := by rw [halloc]; omega

theorem Grown.trans {j k : Nat} (h₁ : Grown root j s s₁) (h₂ : Grown root k s₁ s') :
    Grown root (j + k) s s' where
  tables_eq := by
    rw [h₂.tables_eq, h₁.tables_eq, Set.union_assoc, framesFrom_append h₁.le h₂.le]
  le := h₁.le.trans h₂.le
  bound := by
    have hj := h₁.bound
    have hk := h₂.bound
    rw [Nat.add_mul]
    omega

/-! ## Linking tables -/

/-- A path leads to a table. -/
def Present (root : PhysAddr) (mem : PhysMem) (p : List (Fin 512)) : Prop :=
  ∃ n, walk child mem root.addr p = some n

/-- The linear allocator always answers: the frame at the cursor becomes a
    table on the way to `v`. -/
theorem linkStep_linear (hv : pageIndex 4 v ≠ RECURSIVE) (hwf : TreeWF pt root s.mem)
    (h : LinkStep pt root v s s') :
    s'.alloc.cursor.addr = s.alloc.cursor.addr + PAGE_SIZE
      ∧ s.alloc.cursor.addr % PAGE_SIZE = 0
      ∧ tables root s'.mem = insert s.alloc.cursor.addr (tables root s.mem)
      ∧ ∀ p ∈ tablePaths, Present root s'.mem p →
        Present root s.mem p ∨ p <+: tablePath v := by
  cases h with
  | fail _ ha =>
      obtain ⟨he, -⟩ := LinearFrameAllocator.alloc_eq_ok.mp ha
      cases he
  | @link p q i n f a' hp hn hi ha hal hcan hfr =>
      obtain ⟨hf, hcur⟩ := LinearFrameAllocator.alloc_eq_ok.mp ha
      cases hf
      have hl := linkable hv hp hn hi hal hfr
      refine ⟨hcur, hal, reached_link prefixClosed_tablePaths hwf.unshared hl, ?_⟩
      rintro p' hp' ⟨m, hm⟩
      rw [walk_link prefixClosed_tablePaths hwf.unshared hl hp'] at hm
      split at hm
      · next heq =>
          right
          rw [heq, hp]
          exact ⟨q, by simp⟩
      · exact Or.inl ⟨m, hm⟩

theorem links_linear (hv : pageIndex 4 v ≠ RECURSIVE) {n : Nat}
    (h : Links pt root v n s s') :
    TreeWF pt root s.mem → s.alloc.cursor.addr % PAGE_SIZE = 0 →
      s'.alloc.cursor.addr = s.alloc.cursor.addr + n * PAGE_SIZE
        ∧ Grown root n s s'
        ∧ ∀ p ∈ tablePaths, Present root s'.mem p →
          Present root s.mem p ∨ p <+: tablePath v := by
  induction h with
  | refl s =>
      intro _ _
      exact ⟨by omega, Grown.of_same 0 rfl rfl, fun p _ h => Or.inl h⟩
  | @step n s s₁ s' hstep _ ih =>
      intro hwf hal
      obtain ⟨hcur, -, htables, hpaths⟩ := linkStep_linear hv hwf hstep
      have hal₁ : s₁.alloc.cursor.addr % PAGE_SIZE = 0 := by
        rw [hcur, Nat.add_mod_right]
        exact hal
      obtain ⟨hcur', hgrown, hpaths'⟩ := ih (linkStep_preserved hv hwf hstep).wf hal₁
      have hfirst : Grown root 1 s s₁ :=
        ⟨by rw [htables, hcur, framesFrom_one hal, Set.union_singleton], by omega, by omega⟩
      refine ⟨by rw [hcur', hcur, Nat.succ_mul]; omega, ?_, ?_⟩
      · rw [Nat.add_comm]
        exact hfirst.trans hgrown
      · intro p hp h
        rcases hpaths' p hp h with h | h
        · exact hpaths p hp h
        · exact Or.inr h

/-! ## What boot code knows of the tables -/

/-- The page table after some boot code: it is well formed, its tables lie below
    the cursor, page `w` has frame `f` where `On w f` says so, and the tables
    are those on the way to the addresses `touched`. -/
structure BootState (pt : RecursivePageTable) (root : PhysAddr)
    (s : PagingState LinearFrameAllocator) (touched : List Nat) (On : Nat → Nat → Prop) :
    Prop where
  wf : TreeWF pt root s.mem
  cursor : s.alloc.cursor.addr % PAGE_SIZE = 0
  below : ∀ n ∈ tables root s.mem, n < s.alloc.cursor.addr
  leaf : ∀ v, pageIndex 4 v ≠ RECURSIVE → ∀ f,
    (∃ e, leafEntry root s.mem v = some e ∧ e.addr.addr = f) ↔ On v.page f
  outside : ∀ a ∈ touched, ∃ v : VirtAddr, v.addr = a ∧ pageIndex 4 v ≠ RECURSIVE
  paths : ∀ p ∈ tablePaths, Present root s.mem p
    ↔ p = [] ∨ ∃ v : VirtAddr, v.addr ∈ touched ∧ p <+: tablePath v

variable {touched : List Nat} {On : Nat → Nat → Prop} {flags : PageTableFlags}

namespace BootState

theorem fresh (hb : BootState pt root s touched On) (k : Nat) :
    Fresh k (tables root s.mem) s.alloc :=
  LinearFrameAllocator.fresh_linear k _ _ hb.below

/-- Only what the description says counts. -/
theorem congr {touched' : List Nat} {On' : Nat → Nat → Prop}
    (hb : BootState pt root s touched On) (ht : ∀ a, a ∈ touched ↔ a ∈ touched')
    (hon : ∀ w f, On w f ↔ On' w f) : BootState pt root s touched' On' where
  wf := hb.wf
  cursor := hb.cursor
  below := hb.below
  leaf := fun v hv f => (hb.leaf v hv f).trans (hon _ _)
  outside := fun a ha => hb.outside a ((ht a).mpr ha)
  paths := by
    intro p hp
    rw [hb.paths p hp]
    simp only [ht]

/-- Other frames may be taken from the allocator in between. -/
theorem advance (hb : BootState pt root s touched On) (la : LinearFrameAllocator)
    (hle : s.alloc.cursor.addr ≤ la.cursor.addr) (hal : la.cursor.addr % PAGE_SIZE = 0) :
    BootState pt root ⟨s.mem, la⟩ touched On where
  wf := hb.wf
  cursor := hal
  below := fun n hn => (hb.below n hn).trans_le hle
  leaf := hb.leaf
  outside := hb.outside
  paths := hb.paths

/-- **`translate`** answers what the description says. -/
theorem translate_iff (hb : BootState pt root s touched On)
    (hv : pageIndex 4 v ≠ RECURSIVE) (q : PhysAddr) :
    pt.translate s.mem v = .ok (some q)
      ↔ ∃ f, On v.page f ∧ q.addr = f + v.addr % PAGE_SIZE := by
  rw [translate_eq hv hb.wf]
  constructor
  · intro h
    obtain ⟨e, he, hq⟩ := Option.map_eq_some_iff.mp (Except.ok.inj h)
    refine ⟨e.addr.addr, (hb.leaf v hv _).mp ⟨e, he, rfl⟩, ?_⟩
    rw [← hq]
    rfl
  · rintro ⟨f, hon, hq⟩
    obtain ⟨e, he, rfl⟩ := (hb.leaf v hv f).mpr hon
    rw [he]
    exact congrArg (fun x => Except.ok (some x)) (PhysAddr.ext hq.symm)

end BootState

/-- Writing a leaf entry changes no path. -/
theorem present_leaf {mem : PhysMem} (hwf : TreeWF pt root mem)
    (hv : pageIndex 4 v ≠ RECURSIVE) {t : Nat}
    (ht : walk child mem root.addr (tablePath v) = some t) (e : PageTableEntry)
    {p : List (Fin 512)} (hp : p ∈ tablePaths) :
    Present root (setEntry mem t (pageIndex 1 v) e) p ↔ Present root mem p := by
  rw [Present, Present, walk_setEntry_leaf prefixClosed_tablePaths hwf.unshared e
    (tablePath_mem hv) ht (tablePath_snoc_notMem v _) hp]

/-- A leaf entry with a present flag gives its page a frame and leaves the other
    pages. -/
theorem leaf_write (hb : BootState pt root s touched On)
    (hv : pageIndex 4 v ≠ RECURSIVE) {t : Nat}
    (ht : walk child s.mem root.addr (tablePath v) = some t) {e : PageTableEntry}
    {On' : Nat → Nat → Prop}
    (hsame : ∀ f, (e.isUnused = false ∧ e.addr.addr = f) ↔ On' v.page f)
    (hother : ∀ w, w ≠ v.page → ∀ f, On w f ↔ On' w f) :
    BootState pt root ⟨setEntry s.mem t (pageIndex 1 v) e, s.alloc⟩ touched On' where
  wf := treeWF_leaf hb.wf hv ht e
  cursor := hb.cursor
  below := by
    intro n hn
    rw [tables_leaf hb.wf hv ht e] at hn
    exact hb.below n hn
  leaf := by
    intro w hw f
    by_cases hpage : w.page = v.page
    · rw [leafEntry_leaf_same hb.wf hv ht e hpage, hpage, ← hsame f]
      cases hu : e.isUnused with
      | true => simp
      | false => simp
    · rw [leafEntry_leaf_other hb.wf hv hw ht e hpage, hb.leaf w hw f, hother _ hpage]
  outside := hb.outside
  paths := by
    intro p hp
    rw [present_leaf hb.wf hv ht e hp]
    exact hb.paths p hp

/-- Linking the tables on the way to an address touches it and leaves every
    page. -/
theorem links_boot (hb : BootState pt root s touched On) (hv : pageIndex 4 v ≠ RECURSIVE)
    {n t : Nat} (h : Links pt root v n s s')
    (ht : walk child s'.mem root.addr (tablePath v) = some t) :
    BootState pt root s' (v.addr :: touched) On ∧ Grown root n s s' := by
  have hkept := links_preserved hv h hb.wf
  obtain ⟨hcur, hgrown, hpaths⟩ := links_linear hv h hb.wf hb.cursor
  have hcursor := hb.cursor
  refine ⟨⟨hkept.wf, ?_, ?_, ?_, ?_, ?_⟩, hgrown⟩
  · rw [hcur, Nat.add_mul_mod_self_right]
    exact hb.cursor
  · intro m hm
    rw [hgrown.tables_eq] at hm
    rcases hm with hm | hm
    · exact (hb.below m hm).trans_le hgrown.le
    · exact hm.2.1
  · intro w hw f
    rw [hkept.leaf w hw]
    exact hb.leaf w hw f
  · intro a ha
    rcases List.mem_cons.mp ha with rfl | ha
    · exact ⟨v, rfl, hv⟩
    · exact hb.outside a ha
  -- a path that is new is a prefix of the path that was linked
  · intro p hp
    constructor
    · intro hpresent
      rcases hpaths p hp hpresent with hold | hnew
      · rcases (hb.paths p hp).mp hold with rfl | ⟨w, hw, hpre⟩
        · exact Or.inl rfl
        · exact Or.inr ⟨w, List.mem_cons_of_mem _ hw, hpre⟩
      · exact Or.inr ⟨v, List.mem_cons_self, hnew⟩
    · rintro (rfl | ⟨w, hw, q, hq⟩)
      · exact ⟨root.addr, rfl⟩
      · rcases List.mem_cons.mp hw with hwv | hw
        · rw [VirtAddr.ext hwv] at hq
          rw [← hq] at ht
          exact walk_prefix ht
        · obtain ⟨m, hm⟩ := (hb.paths p hp).mpr (Or.inr ⟨w, hw, q, hq⟩)
          exact ⟨m, hkept.walks p hp m hm⟩

/-- **`map` AT BOOT.** -/
theorem map_boot {from_ : PhysAddr} (hb : BootState pt root s touched On)
    (hpres : flags.contains .PRESENT = true)
    (h : pt.map from_ v flags s = .ok (.ok (), s')) :
    BootState pt root s' (v.addr :: touched)
        (fun w f => On w f ∨ v.page = w ∧ from_.addr = f)
      ∧ Grown root 3 s s' ∧ from_.addr % PAGE_SIZE = 0 := by
  by_cases hv : pageIndex 4 v = RECURSIVE
  · rw [map_reserved hv] at h
    cases h
  · cases map_cases hv hb.wf (hb.fresh 3) h with
    | @mapped n t s₁ hn hlinks hnone hal ht =>
        obtain ⟨hb₁, hgrown⟩ := links_boot hb hv hlinks ht
        -- `map` answered `Ok`, so the page had no frame before
        have habsent : ∀ f, ¬ On v.page f := by
          intro f hon
          obtain ⟨e, he, -⟩ := (hb.leaf v hv f).mpr hon
          rw [hnone] at he
          cases he
        refine ⟨?_, ?_, hal⟩
        · apply leaf_write hb₁ hv ht
          · intro f
            rw [PageTableEntry.isUnused_ofAddr hpres, PageTableEntry.addr_ofAddr flags hal]
            simp [habsent f]
          · intro w hw f
            have hne : v.page ≠ w := fun h => hw h.symm
            simp [hne]
        · have hlast : Grown root 0 s₁ ⟨setEntry s₁.mem t (pageIndex 1 v)
              (.ofAddr from_ flags), s₁.alloc⟩ :=
            Grown.of_same 0 (tables_leaf hb₁.wf hv ht _) rfl
          have hall := hgrown.trans hlast
          exact ⟨hall.tables_eq, hall.le, hall.bound.trans
            (Nat.add_le_add_left (Nat.mul_le_mul_right _ (by omega)) _)⟩

/-- **`unmap` AT BOOT.** -/
theorem unmap_boot (hb : BootState pt root s touched On) (hv : pageIndex 4 v ≠ RECURSIVE)
    (h : pt.unmap v s = .ok (.ok (), s')) :
    BootState pt root s' touched (fun w f => w ≠ v.page ∧ On w f) ∧ Grown root 0 s s' := by
  rcases unmap_cases hv hb.wf with ⟨-, heq⟩ | ⟨t, ht, -, heq⟩
  · cases heq.symm.trans h
  · cases heq.symm.trans h
    refine ⟨leaf_write hb hv ht ?_ ?_, Grown.of_same 0 (tables_leaf hb.wf hv ht _) rfl⟩
    · intro f
      simp [PageTableEntry.isUnused, PageTableEntry.new]
    · intro w hw f
      simp [hw]

/-- **`update_flags` AT BOOT.** -/
theorem updateFlags_boot (hb : BootState pt root s touched On)
    (hv : pageIndex 4 v ≠ RECURSIVE) (hpres : flags.contains .PRESENT = true)
    (h : pt.updateFlags v flags s = .ok (.ok (), s')) :
    BootState pt root s' touched On ∧ Grown root 0 s s' := by
  rcases updateFlags_cases flags hv hb.wf with ⟨-, heq⟩ | ⟨t, ht, hleaf, heq⟩
  · obtain ⟨-, rfl⟩ := Prod.mk.inj (Except.ok.inj (heq.symm.trans h))
    exact ⟨hb, Grown.of_same 0 rfl rfl⟩
  · cases heq.symm.trans h
    refine ⟨leaf_write hb hv ht ?_ fun w _ f => Iff.rfl,
      Grown.of_same 0 (tables_leaf hb.wf hv ht _) rfl⟩
    intro f
    rw [← hb.leaf v hv f, hleaf, PageTableEntry.setFlags,
      PageTableEntry.isUnused_ofAddr hpres,
      PageTableEntry.addr_ofAddr _ (PageTableEntry.addr_aligned _)]
    simp

/-! ## `new` and loops of mappings -/

/-- **`new` AT BOOT.**  The level-4 table is the frame at the cursor. -/
theorem new_boot {hhdm : HhdmResponse} (h : RecursivePageTable.new hhdm s = .ok (pt, s')) :
    ∃ root, BootState pt root s' [] (fun _ _ => False)
      ∧ pt.internalOffset = hhdm.offset.addr
      ∧ tables root s'.mem = framesFrom s.alloc.cursor.addr s'.alloc.cursor.addr
      ∧ s.alloc.cursor.addr % PAGE_SIZE = 0
      ∧ s'.alloc.cursor.addr = s.alloc.cursor.addr + PAGE_SIZE := by
  obtain ⟨root, halloc, hoff, hwf, hmem⟩ := new_cases h
  obtain ⟨hroot, hcur⟩ := LinearFrameAllocator.alloc_eq_ok.mp halloc
  cases hroot
  have hal := hwf.root_aligned
  refine ⟨s.alloc.cursor, ⟨hwf, ?_, ?_, ?_, nofun, ?_⟩, hoff, ?_, hal, hcur⟩
  · rw [hcur, Nat.add_mod_right]
    exact hal
  · intro n hn
    rw [hmem, tables_newMem, Set.mem_singleton_iff] at hn
    rw [hn, hcur]
    exact Nat.lt_add_of_pos_right (by decide)
  · intro v hv f
    rw [hmem, leafEntry_newMem hv]
    simp
  · intro p hp
    constructor
    · rintro ⟨n, hn⟩
      rw [hmem] at hn
      exact Or.inl (walk_newMem hp hn).1
    · rintro (rfl | ⟨w, hw, -⟩)
      · exact ⟨_, rfl⟩
      · cases hw
  · rw [hmem, tables_newMem, hcur, framesFrom_one hal]

/-- Map the page at address `m.2` to the frame at address `m.1`. -/
def mapPage {σ : Type} [FrameAllocator σ] (pt : RecursivePageTable) (flags : PageTableFlags)
    (m : Nat × Nat) (s : PagingState σ) : Fallible PagingError (PagingState σ) Unit :=
  show Panics _ from do
    let p ← PhysAddr.new m.1
    let v ← VirtAddr.new m.2
    pt.map p v flags s

/-- `n` neighbouring pages with their frames. -/
def pagesFrom (phys virt n : Nat) : List (Nat × Nat) :=
  (List.range n).map fun i => (phys + i * PAGE_SIZE, virt + i * PAGE_SIZE)

@[simp] theorem pagesFrom_length (phys virt n : Nat) : (pagesFrom phys virt n).length = n := by
  simp [pagesFrom]

theorem mem_pagesFrom {phys virt n : Nat} {m : Nat × Nat} :
    m ∈ pagesFrom phys virt n
      ↔ ∃ i < n, m = (phys + i * PAGE_SIZE, virt + i * PAGE_SIZE) := by
  simp [pagesFrom, eq_comm]

/-- `map_contiguous` is a loop over neighbouring pages. -/
theorem mapContiguous_eq {σ : Type} [FrameAllocator σ] (pages : Nat) (from_ : PhysAddr)
    (to_ : VirtAddr) (s : PagingState σ) :
    pt.mapContiguous pages from_ to_ flags s
      = if pages * PAGE_SIZE < 2 ^ 64 then
          forEach (mapPage pt flags) (pagesFrom from_.addr to_.addr pages) s
        else .error .overflow := by
  rw [RecursivePageTable.mapContiguous, pagesFrom, forEach_map]
  rfl

/-- The pages and frames of a list of mappings. -/
def OnList (ms : List (Nat × Nat)) (w f : Nat) : Prop :=
  ∃ m ∈ ms, m.2 / PAGE_SIZE = w ∧ m.1 = f

/-- One mapping of a loop. -/
theorem mapPage_boot {m : Nat × Nat} (hb : BootState pt root s touched On)
    (hpres : flags.contains .PRESENT = true)
    (h : mapPage pt flags m s = .ok (.ok (), s')) :
    BootState pt root s' (m.2 :: touched) (fun w f => On w f ∨ m.2 / PAGE_SIZE = w ∧ m.1 = f)
      ∧ Grown root 3 s s' ∧ m.1 % PAGE_SIZE = 0 := by
  obtain ⟨p, hp, h⟩ := bind_eq_ok.mp h
  obtain ⟨v, hv, h⟩ := bind_eq_ok.mp h
  rw [← PhysAddr.new_eq_ok.mp hp, ← VirtAddr.new_eq_ok.mp hv]
  exact map_boot hb hpres h

/-- The mappings `ms` were made on the way from `s` to `s'`. -/
structure Placed (pt : RecursivePageTable) (root : PhysAddr) (ms : List (Nat × Nat))
    (touched : List Nat) (On : Nat → Nat → Prop)
    (s s' : PagingState LinearFrameAllocator) : Prop where
  boot : BootState pt root s' (ms.map Prod.snd ++ touched) (fun w f => On w f ∨ OnList ms w f)
  grown : Grown root (3 * ms.length) s s'
  aligned : ∀ m ∈ ms, m.1 % PAGE_SIZE = 0

theorem onList_append {ms₁ ms₂ : List (Nat × Nat)} {w f : Nat} :
    OnList (ms₁ ++ ms₂) w f ↔ OnList ms₁ w f ∨ OnList ms₂ w f := by
  simp only [OnList, List.mem_append, or_and_right, exists_or]

theorem Placed.nil (hb : BootState pt root s touched On) :
    Placed pt root [] touched On s s where
  boot := hb.congr (fun a => Iff.rfl) fun w f => by simp [OnList]
  grown := Grown.of_same 0 rfl rfl
  aligned := nofun

theorem Placed.append {ms₁ ms₂ : List (Nat × Nat)} (h₁ : Placed pt root ms₁ touched On s s₁)
    (h₂ : Placed pt root ms₂ (ms₁.map Prod.snd ++ touched)
      (fun w f => On w f ∨ OnList ms₁ w f) s₁ s') :
    Placed pt root (ms₁ ++ ms₂) touched On s s' where
  boot := h₂.boot.congr
    (fun a => by simp only [List.map_append, List.mem_append, or_assoc, or_left_comm])
    (fun w f => by rw [onList_append, or_assoc])
  grown := by
    rw [List.length_append, Nat.mul_add]
    exact h₁.grown.trans h₂.grown
  aligned := by
    intro m hm
    rcases List.mem_append.mp hm with hm | hm
    · exact h₁.aligned m hm
    · exact h₂.aligned m hm

/-- **A LOOP OF MAPPINGS AT BOOT.** -/
theorem mapPages_boot (hpres : flags.contains .PRESENT = true) {ms : List (Nat × Nat)} :
    ∀ {s : PagingState LinearFrameAllocator} {touched : List Nat} {On : Nat → Nat → Prop},
      BootState pt root s touched On → forEach (mapPage pt flags) ms s = .ok (.ok (), s') →
      Placed pt root ms touched On s s' := by
  induction ms with
  | nil =>
      intro s touched On hb h
      cases h
      exact Placed.nil hb
  | cons m ms ih =>
      intro s touched On hb h
      rw [forEach_cons] at h
      obtain ⟨_, s₁, h₁, h₂⟩ := andThen_eq_ok h
      obtain ⟨hb₁, hgrown, hal⟩ := mapPage_boot hb hpres h₁
      have hfirst : Placed pt root [m] touched On s s₁ :=
        ⟨hb₁.congr (fun a => Iff.rfl) fun w f => by simp [OnList], hgrown, by simpa using hal⟩
      exact hfirst.append (ih hfirst.boot h₂)

/-! ## Counting tables -/

/-- The tables on the way to an address, as level and number of the block of
    addresses they cover: 512 GiB, 1 GiB and 2 MiB. -/
def tableBlocks (a : Nat) : List (Nat × Nat) :=
  [(3, a / 2 ^ 39), (2, a / 2 ^ 30), (1, a / 2 ^ 21)]

/-- How many tables below the level-4 table the addresses need. -/
def tableCount (touched : List Nat) : Nat := (touched.flatMap tableBlocks).dedup.length

/-- The path to the table of a block. -/
def blockPath : Nat × Nat → List (Fin 512)
  | (3, x) => [Fin.ofNat 512 x]
  | (2, x) => [Fin.ofNat 512 (x / 512), Fin.ofNat 512 x]
  | (_, x) => [Fin.ofNat 512 (x / 512 / 512), Fin.ofNat 512 (x / 512), Fin.ofNat 512 x]

theorem blockPath_three (v : VirtAddr) :
    blockPath (3, v.addr / 2 ^ 39) = [pageIndex 4 v] := rfl

theorem blockPath_two (v : VirtAddr) :
    blockPath (2, v.addr / 2 ^ 30) = [pageIndex 4 v, pageIndex 3 v] := by
  simp [blockPath, pageIndex, Fin.ofNat, Nat.div_div_eq_div_mul]

theorem blockPath_one (v : VirtAddr) :
    blockPath (1, v.addr / 2 ^ 21) = tablePath v := by
  simp [blockPath, tablePath, pageIndex, Fin.ofNat, Nat.div_div_eq_div_mul]

theorem blockPath_ne_nil (b : Nat × Nat) : blockPath b ≠ [] := by
  unfold blockPath
  split <;> exact nofun

/-- The blocks of canonical addresses are told apart by their paths. -/
theorem blockPath_injective {v w : VirtAddr} {b c : Nat × Nat}
    (hb : b ∈ tableBlocks v.addr) (hc : c ∈ tableBlocks w.addr)
    (h : blockPath b = blockPath c) : b = c := by
  have hv := v.canonical
  have hw := w.canonical
  unfold IsCanonical at hv hw
  simp only [tableBlocks, List.mem_cons, List.not_mem_nil, or_false] at hb hc
  -- nine pairs of levels; different levels have paths of different lengths
  rcases hb with rfl | rfl | rfl <;> rcases hc with rfl | rfl | rfl <;>
    simp only [blockPath, List.cons.injEq, List.cons_ne_nil, reduceCtorEq, and_true,
      and_false, Fin.ofNat, Fin.mk.injEq] at h <;>
    simp only [Prod.mk.injEq, true_and] <;> omega

/-- A path under an address leads to one of the three tables on the way. -/
theorem prefix_tablePath {p : List (Fin 512)} :
    p <+: tablePath v ↔ p = [] ∨ ∃ b ∈ tableBlocks v.addr, blockPath b = p := by
  rw [List.prefix_iff_eq_take]
  simp only [tableBlocks, List.mem_cons, List.not_mem_nil, or_false, exists_eq_or_imp,
    exists_eq_left, blockPath_three, blockPath_two, blockPath_one]
  constructor
  · intro h
    match p, h with
    | [], _ => exact Or.inl rfl
    | [i], h => exact Or.inr (Or.inl h.symm)
    | [i, j], h => exact Or.inr (Or.inr (Or.inl h.symm))
    | [i, j, k], h => exact Or.inr (Or.inr (Or.inr h.symm))
    | i :: j :: k :: l :: p, h =>
        have hlen := congrArg List.length h
        simp [tablePath] at hlen
  · rintro (rfl | rfl | rfl | rfl) <;> rfl

/-- The blocks that the addresses touch. -/
def blocks (touched : List Nat) : Finset (Nat × Nat) := (touched.flatMap tableBlocks).toFinset

theorem mem_blocks {b : Nat × Nat} : b ∈ blocks touched ↔ ∃ a ∈ touched, b ∈ tableBlocks a := by
  rw [blocks, List.mem_toFinset, List.mem_flatMap]

/-- The paths that lead to a table. -/
def presentPaths (root : PhysAddr) (mem : PhysMem) : Set (List (Fin 512)) :=
  {p | p ∈ tablePaths ∧ Present root mem p}

/-- A table for each present path. -/
theorem tables_ncard_paths {mem : PhysMem} (hwf : TreeWF pt root mem) :
    (tables root mem).ncard = (presentPaths root mem).ncard := by
  have himage : tables root mem
      = (fun p => (walk child mem root.addr p).getD 0) '' presentPaths root mem := by
    ext n
    constructor
    · rintro ⟨p, hp, hn⟩
      exact ⟨p, ⟨hp, n, hn⟩, by simp [hn]⟩
    · rintro ⟨p, ⟨hp, m, hm⟩, rfl⟩
      exact ⟨p, hp, by simp [hm]⟩
  have hinj : Set.InjOn (fun p => (walk child mem root.addr p).getD 0)
      (presentPaths root mem) := by
    rintro p ⟨hp, n, hn⟩ q ⟨hq, m, hm⟩ heq
    dsimp only at heq
    rw [hn, hm] at heq
    cases (show n = m from heq)
    exact hwf.unshared p q n hp hq hn hm
  rw [himage, hinj.ncard_image]

/-- A present path for each block, and the empty one. -/
theorem presentPaths_eq (hb : BootState pt root s touched On) :
    presentPaths root s.mem = insert [] (blockPath '' (blocks touched : Set (Nat × Nat))) := by
  ext p
  simp only [presentPaths, Set.mem_ofPred_eq, Set.mem_insert_iff, Set.mem_image,
    Finset.mem_coe, mem_blocks]
  constructor
  · rintro ⟨hp, hpresent⟩
    rcases (hb.paths p hp).mp hpresent with rfl | ⟨v, hv, hpre⟩
    · exact Or.inl rfl
    · rcases prefix_tablePath.mp hpre with rfl | ⟨b, hbv, rfl⟩
      · exact Or.inl rfl
      · exact Or.inr ⟨b, ⟨v.addr, hv, hbv⟩, rfl⟩
  · rintro (rfl | ⟨b, ⟨a, ha, hba⟩, rfl⟩)
    · exact ⟨nil_mem_tablePaths, root.addr, rfl⟩
    · obtain ⟨v, rfl, hv⟩ := hb.outside a ha
      obtain ⟨q, hq⟩ : blockPath b <+: tablePath v :=
        prefix_tablePath.mpr (Or.inr ⟨b, hba, rfl⟩)
      have hmem := tablePath_prefix_mem hv hq.symm
      exact ⟨hmem, (hb.paths _ hmem).mpr (Or.inr ⟨v, ha, q, hq⟩)⟩

/-- **THE NUMBER OF TABLES.** -/
theorem tables_ncard (hb : BootState pt root s touched On) :
    (tables root s.mem).ncard = 1 + tableCount touched := by
  have hinj : Set.InjOn blockPath (blocks touched : Set (Nat × Nat)) := by
    intro b hbm c hcm heq
    obtain ⟨a, ha, hba⟩ := mem_blocks.mp hbm
    obtain ⟨a', ha', hca⟩ := mem_blocks.mp hcm
    obtain ⟨v, rfl, -⟩ := hb.outside a ha
    obtain ⟨w, rfl, -⟩ := hb.outside a' ha'
    exact blockPath_injective hba hca heq
  have hnil : ([] : List (Fin 512)) ∉ blockPath '' (blocks touched : Set (Nat × Nat)) := by
    rintro ⟨b, -, hnil⟩
    exact blockPath_ne_nil b hnil
  rw [tables_ncard_paths hb.wf, presentPaths_eq hb,
    Set.ncard_insert_of_notMem hnil (Set.Finite.image _ (Finset.finite_toSet _)),
    hinj.ncard_image, Set.ncard_coe_finset, blocks, List.card_toFinset, tableCount,
    Nat.add_comm]

/-! ## When the mappings succeed -/

/-- Addresses below `limit` have a canonical address in the direct map. -/
structure Room (offset limit : Nat) : Prop where
  low : limit < 2 ^ 47
  top : limit + offset < 2 ^ 64
  half : offset < 2 ^ 47 → limit + offset < 2 ^ 47

theorem Room.mono {offset limit limit' : Nat} (h : Room offset limit) (hle : limit' ≤ limit) :
    Room offset limit' where
  low := hle.trans_lt h.low
  top := by
    have := h.top
    omega
  half := by
    intro hoff
    have := h.half hoff
    omega

theorem Room.canonical {offset limit a : Nat} (h : Room offset limit)
    (hoff : IsCanonical offset) (hle : a ≤ limit) : IsCanonical (a + offset) := by
  have htop := h.top
  have hhalf := h.half
  unfold IsCanonical at *
  omega

/-- A page that `map` accepts: an aligned frame, and an address outside the
    recursive slot. -/
structure Mappable (m : Nat × Nat) : Prop where
  phys : m.1 < 2 ^ 52
  aligned : m.1 % PAGE_SIZE = 0
  virt : ∃ v : VirtAddr, v.addr = m.2 ∧ pageIndex 4 v ≠ RECURSIVE

theorem mapPage_total (flags : PageTableFlags) {m : Nat × Nat}
    (hb : BootState pt root s touched On)
    (hoff : IsCanonical pt.internalOffset) (hm : Mappable m)
    (habsent : ∀ f, ¬ On (m.2 / PAGE_SIZE) f)
    (hroom : Room pt.internalOffset (s.alloc.cursor.addr + 3 * PAGE_SIZE)) :
    ∃ s', mapPage pt flags m s = .ok (.ok (), s') := by
  obtain ⟨v, hvaddr, hv⟩ := hm.virt
  obtain ⟨hlive, hnf⟩ := LinearFrameAllocator.live_linear hoff 3 s.alloc hb.cursor
    hroom.low hroom.top hroom.half
  have hphys : PhysAddr.new m.1 = .ok ⟨m.1, hm.phys⟩ := PhysAddr.new_eq_ok.mpr rfl
  have hvirt : VirtAddr.new m.2 = .ok v := VirtAddr.new_eq_ok.mpr hvaddr
  obtain ⟨r, s', hmap, hne⟩ : ∃ r s', pt.map ⟨m.1, hm.phys⟩ v flags s = .ok (r, s')
      ∧ (NeverFails 3 s.alloc → r ≠ .error .tableAllocationFailed) :=
    map_total hv hb.wf (hb.fresh 3) hlive hm.aligned
  refine ⟨s', ?_⟩
  rw [mapPage, hphys, ok_bind, hvirt, ok_bind]
  cases map_cases hv hb.wf (hb.fresh 3) hmap with
  | @alreadyMapped e hleaf =>
      have hon := (hb.leaf v hv _).mp ⟨e, hleaf, rfl⟩
      rw [VirtAddr.page, hvaddr] at hon
      exact absurd hon (habsent _)
  | allocFailed _ _ _ _ => exact absurd rfl (hne hnf)
  | mapped _ _ _ _ _ => exact hmap

/-- Mappings that can all be made in the state `s`, in which `On` says what is
    mapped. -/
structure Plan (pt : RecursivePageTable) (On : Nat → Nat → Prop)
    (s : PagingState LinearFrameAllocator) (ms : List (Nat × Nat)) : Prop where
  mappable : ∀ m ∈ ms, Mappable m
  distinct : (ms.map fun m => m.2 / PAGE_SIZE).Nodup
  absent : ∀ m ∈ ms, ∀ f, ¬ On (m.2 / PAGE_SIZE) f
  room : Room pt.internalOffset (s.alloc.cursor.addr + 3 * ms.length * PAGE_SIZE)

namespace Plan

variable {ms₁ ms₂ : List (Nat × Nat)}

theorem left (h : Plan pt On s (ms₁ ++ ms₂)) : Plan pt On s ms₁ where
  mappable := fun m hm => h.mappable m (List.mem_append_left _ hm)
  distinct := by
    have hd := h.distinct
    rw [List.map_append] at hd
    exact (List.nodup_append.mp hd).1
  absent := fun m hm => h.absent m (List.mem_append_left _ hm)
  room := by
    refine h.room.mono ?_
    rw [List.length_append]
    exact Nat.add_le_add_left (Nat.mul_le_mul_right _ (by omega)) _

/-- What is left to do once the first mappings are made. -/
theorem right (h : Plan pt On s (ms₁ ++ ms₂)) (hp : Placed pt root ms₁ touched On s s₁) :
    Plan pt (fun w f => On w f ∨ OnList ms₁ w f) s₁ ms₂ where
  mappable := fun m hm => h.mappable m (List.mem_append_right _ hm)
  distinct := by
    have hd := h.distinct
    rw [List.map_append] at hd
    exact (List.nodup_append.mp hd).2.1
  absent := by
    rintro m hm f (hon | ⟨m', hm', hpage, -⟩)
    · exact h.absent m (List.mem_append_right _ hm) f hon
    · have hd := h.distinct
      rw [List.map_append] at hd
      exact (List.nodup_append.mp hd).2.2 _ (List.mem_map_of_mem hm') _
        (List.mem_map_of_mem hm) hpage
  room := by
    have hbound := hp.grown.bound
    refine h.room.mono ?_
    rw [List.length_append]
    simp only [PAGE_SIZE] at *
    omega

end Plan

/-- **A LOOP OF MAPPINGS RETURNS `Ok`** when its pages are distinct and none of
    them is mapped. -/
theorem mapPages_total (hpres : flags.contains .PRESENT = true)
    (hoff : IsCanonical pt.internalOffset) {ms : List (Nat × Nat)} :
    ∀ {s : PagingState LinearFrameAllocator} {touched : List Nat} {On : Nat → Nat → Prop},
      BootState pt root s touched On → Plan pt On s ms →
      ∃ s', forEach (mapPage pt flags) ms s = .ok (.ok (), s') := by
  induction ms with
  | nil => intro s touched On _ _; exact ⟨s, rfl⟩
  | cons m ms ih =>
      intro s touched On hb hplan
      have hfirst : Plan pt On s [m] := Plan.left hplan
      obtain ⟨s₁, h₁⟩ := mapPage_total flags hb hoff (hfirst.mappable m List.mem_cons_self)
        (hfirst.absent m List.mem_cons_self) hfirst.room
      have hplaced : Placed pt root [m] touched On s s₁ := by
        refine mapPages_boot hpres hb ?_
        rw [forEach_cons, h₁, andThen_ok, forEach_nil]
      obtain ⟨s', h₂⟩ := ih hplaced.boot (Plan.right hplan hplaced)
      exact ⟨s', by rw [forEach_cons, h₁, andThen_ok, h₂]⟩

/-- `unmap` returns `Ok` on a mapped page. -/
theorem unmap_total (hb : BootState pt root s touched On) (hv : pageIndex 4 v ≠ RECURSIVE)
    {f : Nat} (hon : On v.page f) : ∃ s', pt.unmap v s = .ok (.ok (), s') := by
  obtain ⟨e, he, -⟩ := (hb.leaf v hv f).mpr hon
  rcases unmap_cases hv hb.wf with ⟨hnone, -⟩ | ⟨t, -, -, heq⟩
  · rw [he] at hnone
    cases hnone
  · exact ⟨_, heq⟩

/-- `update_flags` returns `Ok` on a mapped page. -/
theorem updateFlags_total (flags : PageTableFlags) (hb : BootState pt root s touched On)
    (hv : pageIndex 4 v ≠ RECURSIVE) {f : Nat} (hon : On v.page f) :
    ∃ s', pt.updateFlags v flags s = .ok (.ok (), s') := by
  obtain ⟨e, he, -⟩ := (hb.leaf v hv f).mpr hon
  rcases updateFlags_cases flags hv hb.wf with ⟨hnone, -⟩ | ⟨t, -, -, heq⟩
  · rw [he] at hnone
    cases hnone
  · exact ⟨_, heq⟩

/-- `new` returns at boot. -/
theorem new_boot_total {hhdm : HhdmResponse} (s : PagingState LinearFrameAllocator)
    (hal : s.alloc.cursor.addr % PAGE_SIZE = 0)
    (hroom : Room hhdm.offset.addr (s.alloc.cursor.addr + PAGE_SIZE)) :
    ∃ pt s', RecursivePageTable.new hhdm s = .ok (pt, s') := by
  obtain ⟨hlive, hnf⟩ := LinearFrameAllocator.live_linear hhdm.offset.canonical 1 s.alloc hal
    (by rw [Nat.one_mul]; exact hroom.low) (by rw [Nat.one_mul]; exact hroom.top)
    (by rw [Nat.one_mul]; exact hroom.half)
  exact new_total hlive hnf

end KermolBootTables
