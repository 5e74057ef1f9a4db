import Kermol.MapStepProofs

/-! # Runs of the page table

    A run starts from `RecursivePageTable::new` and performs `map`, `unmap` and
    `update_flags` in any order.  This file has the transition function, what
    `new` builds (`new_cases`, `new_total`), and what one operation and then a
    whole run keep (`step_kept`, `run_kept`) when every address lies outside
    the recursive slot. -/

namespace KermolPageTableRun

open RustEffect X86Paging KermolFrameAllocator KermolPageTable KermolPageTree
open KermolMapStep RadixTree

/-- One operation of a run. -/
inductive Op where
  | map (from_ : PhysAddr) (to_ : VirtAddr) (flags : PageTableFlags)
  | unmap (address : VirtAddr)
  | updateFlags (to_ : VirtAddr) (flags : PageTableFlags)
deriving DecidableEq, Repr

/-- The virtual address an operation is about. -/
def Op.address : Op → VirtAddr
  | .map _ v _ => v
  | .unmap v => v
  | .updateFlags v _ => v

/-- The operation stays outside the recursive slot. -/
def Op.Outside (op : Op) : Prop := pageIndex 4 op.address ≠ RECURSIVE

/-- A physical address given to `map` is page aligned. -/
def Op.Aligned : Op → Prop
  | .map from_ _ _ => from_.addr % PAGE_SIZE = 0
  | _ => True

instance (op : Op) : Decidable op.Outside := inferInstanceAs (Decidable (_ ≠ _))

instance : (op : Op) → Decidable op.Aligned
  | .map _ _ _ => inferInstanceAs (Decidable (_ = _))
  | .unmap _ => inferInstanceAs (Decidable True)
  | .updateFlags _ _ => inferInstanceAs (Decidable True)

variable {σ : Type} [FrameAllocator σ]

/-- Perform one operation. -/
def step (pt : RecursivePageTable) :
    Op → PagingState σ → Fallible PagingError (PagingState σ) Unit
  | .map from_ to_ flags, s => pt.map from_ to_ flags s
  | .unmap v, s => pt.unmap v s
  | .updateFlags v flags, s => pt.updateFlags v flags s

/-- Perform the operations in order and collect their results. -/
def run (pt : RecursivePageTable) :
    List Op → PagingState σ → Panics (List (Except PagingError Unit) × PagingState σ)
  | [], s => return ([], s)
  | op :: ops, s => do
      let (r, s₁) ← step pt op s
      let (rs, s') ← run pt ops s₁
      return (r :: rs, s')

theorem run_cons {pt : RecursivePageTable} {op : Op} {ops : List Op}
    {s s' : PagingState σ} {out : List (Except PagingError Unit)} :
    run pt (op :: ops) s = .ok (out, s')
      ↔ ∃ r s₁ rs, step pt op s = .ok (r, s₁) ∧ run pt ops s₁ = .ok (rs, s')
        ∧ out = r :: rs := by
  rw [run, bind_eq_ok]
  constructor
  · rintro ⟨⟨r, s₁⟩, h₁, h⟩
    obtain ⟨⟨rs, s₂⟩, h₂, h⟩ := bind_eq_ok.mp h
    cases h
    exact ⟨r, s₁, rs, h₁, h₂, rfl⟩
  · rintro ⟨r, s₁, rs, h₁, h₂, rfl⟩
    exact ⟨(r, s₁), h₁, bind_eq_ok.mpr ⟨(rs, s'), h₂, rfl⟩⟩

/-- A run of two lists is the one run after the other. -/
theorem run_append {pt : RecursivePageTable} {ops₁ ops₂ : List Op} :
    ∀ {s s' : PagingState σ} {rs : List (Except PagingError Unit)},
      run pt (ops₁ ++ ops₂) s = .ok (rs, s') →
      ∃ rs₁ s₁ rs₂, run pt ops₁ s = .ok (rs₁, s₁) ∧ run pt ops₂ s₁ = .ok (rs₂, s')
        ∧ rs = rs₁ ++ rs₂ ∧ rs₁.length = ops₁.length := by
  induction ops₁ with
  | nil => intro s s' rs h; exact ⟨[], s, rs, rfl, h, rfl, rfl⟩
  | cons op ops₁ ih =>
      intro s s' rs h
      obtain ⟨r, s₀, rs₀, h₀, hrest, rfl⟩ := run_cons.mp h
      obtain ⟨rs₁, s₁, rs₂, h₁, h₂, rfl, hlen⟩ := ih hrest
      exact ⟨r :: rs₁, s₁, rs₂, run_cons.mpr ⟨r, s₀, rs₁, h₀, h₁, rfl⟩, h₂, rfl,
        congrArg (· + 1) hlen⟩

/-! ## `new` -/

/-- The memory that `new` leaves when it got frame `root`. -/
def newMem (mem : PhysMem) (root : PhysAddr) : PhysMem :=
  setEntry (clear mem root.addr PageTableEntry.new) root.addr RECURSIVE
    (PageTableEntry.ofAddr root flagsRw)

theorem newMem_root (mem : PhysMem) (root : PhysAddr) {i : Fin 512}
    (hi : i ≠ RECURSIVE) : newMem mem root root.addr i = PageTableEntry.new := by
  rw [newMem, setEntry_of_ne _ (Or.inr hi), clear_same]

/-- The new level-4 table leads nowhere but to itself. -/
theorem walk_newMem {mem : PhysMem} {root : PhysAddr} {p : List (Fin 512)} {n : Nat}
    (hp : p ∈ tablePaths) (hn : walk child (newMem mem root) root.addr p = some n) :
    p = [] ∧ n = root.addr := by
  cases p with
  | nil =>
      cases hn
      exact ⟨rfl, rfl⟩
  | cons i p =>
      have hi : i ≠ RECURSIVE := fun h => hp.2 (by rw [h]; rfl)
      rw [walk_cons, newMem_root mem root hi] at hn
      cases hn

theorem tables_newMem (mem : PhysMem) (root : PhysAddr) :
    tables root (newMem mem root) = {root.addr} := by
  ext n
  constructor
  · rintro ⟨p, hp, hn⟩
    exact (walk_newMem hp hn).2
  · rintro rfl
    exact TreeWF.root_mem

theorem treeWF_newMem {mem : PhysMem} {root : PhysAddr} {lvl4 : VirtAddr}
    {offset : Nat} (hlvl4 : lvl4.addr = root.addr + offset)
    (hoff : offset % PAGE_SIZE = 0) (hal : root.addr % PAGE_SIZE = 0) :
    TreeWF ⟨lvl4, offset⟩ root (newMem mem root) where
  lvl4 := hlvl4
  offset := hoff
  unshared := by
    intro p q n hp hq hpn hqn
    rw [(walk_newMem hp hpn).1, (walk_newMem hq hqn).1]
  slot := setEntry_same _ _ _
  inner := by
    intro p n i hpi hn
    left
    obtain ⟨rfl, rfl⟩ := walk_newMem (prefixClosed_tablePaths p i hpi) hn
    exact newMem_root mem root fun h => hpi.2 (by rw [h]; rfl)
  reach := by
    intro n hn
    rw [tables_newMem] at hn
    cases hn
    exact ⟨hal, root.valid, hlvl4 ▸ lvl4.canonical⟩

theorem leafEntry_newMem {mem : PhysMem} {root : PhysAddr} {v : VirtAddr}
    (hv : pageIndex 4 v ≠ RECURSIVE) : leafEntry root (newMem mem root) v = none := by
  apply leafEntry_of_no_table
  rw [tablePath, walk_cons, newMem_root mem root hv]
  rfl

/-- **`new`, INVERTED.** -/
theorem new_cases {hhdm : HhdmResponse} {s s' : PagingState σ}
    {pt : RecursivePageTable} (h : RecursivePageTable.new hhdm s = .ok (pt, s')) :
    ∃ root, FrameAllocator.alloc s.alloc = .ok (.ok root, s'.alloc)
      ∧ pt.internalOffset = hhdm.offset.addr ∧ TreeWF pt root s'.mem
      ∧ s'.mem = newMem s.mem root := by
  have hoff := hhdm.aligned
  unfold RecursivePageTable.new at h
  obtain ⟨⟨answer, a'⟩, ha, h⟩ := bind_eq_ok.mp h
  cases answer with
  | error e => cases h
  | ok root =>
      obtain ⟨base, hbase, h⟩ := bind_eq_ok.mp h
      obtain ⟨lvl4, hlvl4, h⟩ := bind_eq_ok.mp h
      obtain ⟨mem', hmem, h⟩ := bind_eq_ok.mp h
      obtain ⟨start, hstart, h⟩ := bind_eq_ok.mp h
      obtain ⟨e, he, h⟩ := bind_eq_ok.mp h
      have hbase' := VirtAddr.new_eq_ok.mp hbase
      have hlvl4' : lvl4.addr = root.addr + hhdm.offset.addr :=
        (VirtAddr.new_eq_ok.mp hlvl4).trans (by rw [hbase'])
      have hstart' := PhysAddr.new_eq_ok.mp hstart
      obtain ⟨-, rfl⟩ := PageTableEntry.setAddr_eq_ok.mp he
      unfold RecursivePageTable.newPageTableLevel at hmem
      split at hmem
      · next halign =>
          have hal : root.addr % PAGE_SIZE = 0 := by
            unfold PAGE_SIZE at *
            omega
          have hsr : start = root := PhysAddr.ext (by omega)
          have hfr : lvl4.addr - hhdm.offset.addr = root.addr := by omega
          cases hmem
          cases h
          subst hsr
          refine ⟨start, ha, rfl, ?_, ?_⟩
          · show TreeWF _ start (setEntry (clear s.mem _ _) _ _ _)
            rw [hfr]
            exact treeWF_newMem hlvl4' hoff hal
          · show setEntry (clear s.mem _ _) _ _ _ = _
            rw [hfr]
            rfl
      · cases hmem

/-- **`new` RETURNS** when the allocator has a usable frame. -/
theorem new_total {hhdm : HhdmResponse} {s : PagingState σ}
    (hlive : Live hhdm.offset.addr 1 s.alloc) (hnf : NeverFails 1 s.alloc) :
    ∃ pt s', RecursivePageTable.new hhdm s = .ok (pt, s') := by
  obtain ⟨root, a', ha, -⟩ := hnf
  obtain ⟨r, a₁, ha₁, -, hok⟩ := hlive
  cases ha.symm.trans ha₁
  obtain ⟨hal, hcan⟩ := hok root rfl
  have hoffcan := hhdm.offset.canonical
  have hoff := hhdm.aligned
  have hroot := root.valid
  have hbase : IsCanonical root.addr := by
    unfold IsCanonical at *
    omega
  have h₁ : VirtAddr.new root.addr = .ok ⟨root.addr, hbase⟩ :=
    VirtAddr.new_eq_ok.mpr rfl
  have h₂ : VirtAddr.add ⟨root.addr, hbase⟩ hhdm.offset.addr
      = .ok ⟨root.addr + hhdm.offset.addr, hcan⟩ := VirtAddr.new_eq_ok.mpr rfl
  have halign : (root.addr + hhdm.offset.addr) % PAGE_SIZE = 0 := by
    unfold PAGE_SIZE at *
    omega
  have h₃ : PhysAddr.new (root.addr - root.addr % PAGE_SIZE) = .ok root :=
    PhysAddr.new_eq_ok.mpr (by omega)
  have h₄ : PageTableEntry.setAddr root flagsRw = .ok (.ofAddr root flagsRw) :=
    PageTableEntry.setAddr_eq_ok.mpr ⟨hal, rfl⟩
  unfold RecursivePageTable.new
  rw [ha, ok_bind]
  dsimp only
  rw [h₁, ok_bind, h₂, ok_bind, RecursivePageTable.newPageTableLevel, if_pos halign,
    ok_bind, h₃, ok_bind, h₄, ok_bind]
  exact ⟨_, _, rfl⟩

/-- The tables after `new` are the one frame it took. -/
theorem fresh_new {s s' : PagingState σ} {root : PhysAddr} {k : Nat}
    (halloc : FrameAllocator.alloc s.alloc = .ok (.ok root, s'.alloc))
    (hmem : s'.mem = newMem s.mem root) (hfresh : Fresh (k + 1) ∅ s.alloc) :
    Fresh k (tables root s'.mem) s'.alloc := by
  have h := (hfresh _ _ halloc).2
  rwa [insert_empty_eq, ← tables_newMem s.mem, ← hmem] at h

theorem live_new {s s' : PagingState σ} {root : PhysAddr} {offset k : Nat}
    (halloc : FrameAllocator.alloc s.alloc = .ok (.ok root, s'.alloc))
    (hlive : Live offset (k + 1) s.alloc) : Live offset k s'.alloc := by
  obtain ⟨r, a', ha, hl, -⟩ := hlive
  cases halloc.symm.trans ha
  exact hl

theorem neverFails_new {s s' : PagingState σ} {root : PhysAddr} {k : Nat}
    (halloc : FrameAllocator.alloc s.alloc = .ok (.ok root, s'.alloc))
    (hnf : NeverFails (k + 1) s.alloc) : NeverFails k s'.alloc := by
  obtain ⟨f, a', ha, hn⟩ := hnf
  cases halloc.symm.trans ha
  exact hn

/-! ### A boot state

    A bump allocator in low memory under Limine's usual direct map, as an
    instance of the allocator contract. -/

/-- The direct map at the start of the higher half. -/
def sampleHhdm : HhdmResponse := ⟨⟨0xFFFF800000000000, by decide⟩, by decide⟩

/-- Empty memory and a bump allocator at 1 MiB. -/
def sampleState : PagingState LinearFrameAllocator :=
  ⟨fun _ _ => PageTableEntry.new, sampleLinear⟩

/-- A frame behind those that the tables take, a page of the kernel's area, and the
    page whose walk through the recursive slot ends in the level-2 table of the
    lowest addresses. -/
def sampleFrame : PhysAddr := ⟨0x200000, by decide⟩

def samplePage : VirtAddr := ⟨0xFFFFE00000003000, by decide⟩

def slotView : VirtAddr := ⟨0xFFFFFF0000000000, by decide⟩

theorem sampleState_contract {k : Nat} (hk : k ≤ 1024) :
    Fresh k ∅ sampleState.alloc
      ∧ Live sampleHhdm.offset.addr k sampleState.alloc
      ∧ NeverFails k sampleState.alloc := by
  have hcur : sampleState.alloc.cursor.addr = 0x100000 := rfl
  have hoff : sampleHhdm.offset.addr = 0xFFFF800000000000 := rfl
  have hpage : PAGE_SIZE = 4096 := rfl
  refine ⟨LinearFrameAllocator.fresh_linear k ∅ _ nofun, ?_⟩
  refine LinearFrameAllocator.live_linear sampleHhdm.offset.canonical k _ ?_ ?_ ?_ ?_
  · rw [hcur, hpage]
  · rw [hcur, hpage]
    omega
  · rw [hcur, hpage, hoff]
    omega
  · rw [hoff]
    omega

/-! ## What an operation keeps -/

variable {pt : RecursivePageTable} {root : PhysAddr} {s s' : PagingState σ}

/-- Everything a single operation does to memory: it keeps the tree, and keeps
    the allocator's contract up to the three calls it may make. -/
structure Kept (pt : RecursivePageTable) (root : PhysAddr) (k : Nat)
    (s s' : PagingState σ) : Prop where
  wf : TreeWF pt root s'.mem
  walks : ∀ p ∈ tablePaths, ∀ m, walk child s.mem root.addr p = some m →
    walk child s'.mem root.addr p = some m
  fresh : ∀ j, Fresh (j + k) (tables root s.mem) s.alloc →
    Fresh j (tables root s'.mem) s'.alloc
  live : ∀ j, Live pt.internalOffset (j + k) s.alloc →
    Live pt.internalOffset j s'.alloc
  neverFails : ∀ j, NeverFails (j + k) s.alloc → NeverFails j s'.alloc

theorem kept_of_leaf (hwf : TreeWF pt root s.mem) {v : VirtAddr} {t : Nat}
    (hv : pageIndex 4 v ≠ RECURSIVE)
    (ht : walk child s.mem root.addr (tablePath v) = some t) (e : PageTableEntry) :
    Kept pt root 0 s ⟨setEntry s.mem t (pageIndex 1 v) e, s.alloc⟩ where
  wf := treeWF_leaf hwf hv ht e
  walks := by
    intro p hp m hm
    rwa [walk_setEntry_leaf prefixClosed_tablePaths hwf.unshared e (tablePath_mem hv)
      ht (tablePath_snoc_notMem v _) hp]
  fresh := by
    intro j hf
    rw [tables_leaf hwf hv ht e]
    exact hf
  live := fun j h => h
  neverFails := fun j h => h

theorem kept_of_links (hwf : TreeWF pt root s.mem) {v : VirtAddr} {n : Nat}
    (hv : pageIndex 4 v ≠ RECURSIVE) (h : Links pt root v n s s') :
    Kept pt root n s s' :=
  have hp := links_preserved hv h hwf
  ⟨hp.wf, hp.walks, hp.fresh, hp.live, hp.neverFails⟩

theorem kept_mono {j k : Nat} (h : Kept pt root j s s') (hjk : j ≤ k) :
    Kept pt root k s s' where
  wf := h.wf
  walks := h.walks
  fresh := fun i hf => h.fresh i (fresh_mono hf (by omega))
  live := fun i hf => h.live i (live_mono hf (by omega))
  neverFails := fun i hf => h.neverFails i (neverFails_mono hf (by omega))

theorem kept_trans {j k : Nat} {s₁ : PagingState σ} (h₁ : Kept pt root j s s₁)
    (h₂ : Kept pt root k s₁ s') : Kept pt root (j + k) s s' where
  wf := h₂.wf
  walks := fun p hp m hm => h₂.walks p hp m (h₁.walks p hp m hm)
  fresh := fun i hf => h₂.fresh i (h₁.fresh (i + k) (fresh_mono hf (by omega)))
  live := fun i hf => h₂.live i (h₁.live (i + k) (live_mono hf (by omega)))
  neverFails := fun i hf =>
    h₂.neverFails i (h₁.neverFails (i + k) (neverFails_mono hf (by omega)))

theorem kept_refl (hwf : TreeWF pt root s.mem) : Kept pt root 0 s s :=
  ⟨hwf, fun _ _ _ h => h, fun _ h => h, fun _ h => h, fun _ h => h⟩

/-- **STEP.**  An operation outside the recursive slot keeps the tree. -/
theorem step_kept {op : Op} {r : Except PagingError Unit} (hop : op.Outside)
    (hwf : TreeWF pt root s.mem) (hfresh : Fresh 3 (tables root s.mem) s.alloc)
    (h : step pt op s = .ok (r, s')) : Kept pt root 3 s s' := by
  cases op with
  | map from_ to_ flags =>
      cases map_cases hop hwf hfresh h with
      | alreadyMapped _ => exact kept_mono (kept_refl hwf) (by omega)
      | allocFailed hn hlinks _ _ => exact kept_mono (kept_of_links hwf hop hlinks) hn
      | mapped hn hlinks _ _ ht =>
          have h₁ := kept_of_links hwf hop hlinks
          exact kept_mono (kept_trans h₁ (kept_of_leaf h₁.wf hop ht _)) hn
  | unmap v =>
      refine kept_mono (j := 0) ?_ (by omega)
      rcases unmap_cases hop hwf with ⟨_, heq⟩ | ⟨t, ht, _, heq⟩
      · cases heq.symm.trans h
        exact kept_refl hwf
      · cases heq.symm.trans h
        exact kept_of_leaf hwf hop ht _
  | updateFlags v flags =>
      refine kept_mono (j := 0) ?_ (by omega)
      rcases updateFlags_cases flags hop hwf with ⟨_, heq⟩ | ⟨t, ht, _, heq⟩
      · cases heq.symm.trans h
        exact kept_refl hwf
      · cases heq.symm.trans h
        exact kept_of_leaf hwf hop ht _

/-- An operation outside the recursive slot returns, and for want of a frame
    only if the allocator fails. -/
theorem step_total {op : Op} (hop : op.Outside) (hal : op.Aligned)
    (hwf : TreeWF pt root s.mem) (hfresh : Fresh 3 (tables root s.mem) s.alloc)
    (hlive : Live pt.internalOffset 3 s.alloc) :
    ∃ r s', step pt op s = .ok (r, s')
      ∧ (NeverFails 3 s.alloc → r ≠ .error .tableAllocationFailed) := by
  cases op with
  | map from_ to_ flags => exact map_total hop hwf hfresh hlive hal
  | unmap v =>
      rcases unmap_cases hop hwf with ⟨_, heq⟩ | ⟨t, ht, _, heq⟩
      · exact ⟨_, _, heq, fun _ => nofun⟩
      · exact ⟨_, _, heq, fun _ => nofun⟩
  | updateFlags v flags =>
      rcases updateFlags_cases flags hop hwf with ⟨_, heq⟩ | ⟨t, ht, _, heq⟩
      · refine ⟨_, _, heq, fun _ => ?_⟩
        split
        · exact nofun
        · exact nofun
      · exact ⟨_, _, heq, fun _ => nofun⟩

/-- **RUN.**  A run outside the recursive slot keeps the tree. -/
theorem run_kept {ops : List Op} :
    ∀ {s s' : PagingState σ} {rs : List (Except PagingError Unit)},
      (∀ op ∈ ops, op.Outside) → TreeWF pt root s.mem →
      Fresh (3 * ops.length) (tables root s.mem) s.alloc →
      run pt ops s = .ok (rs, s') → Kept pt root (3 * ops.length) s s' := by
  induction ops with
  | nil =>
      intro s s' rs _ hwf _ h
      cases h
      exact kept_refl hwf
  | cons op ops ih =>
      intro s s' rs hops hwf hfresh h
      obtain ⟨r, s₁, rs', h₁, h₂, -⟩ := run_cons.mp h
      rw [List.length_cons] at hfresh ⊢
      have hk := step_kept (hops op List.mem_cons_self) hwf
        (fresh_mono hfresh (by omega)) h₁
      have hk' := ih (fun o ho => hops o (List.mem_cons_of_mem op ho)) hk.wf
        (hk.fresh _ (fresh_mono hfresh (by omega))) h₂
      exact kept_mono (kept_trans hk hk') (by omega)

/-- A run outside the recursive slot returns when the allocator answers. -/
theorem run_total {ops : List Op} :
    ∀ {s : PagingState σ}, (∀ op ∈ ops, op.Outside ∧ op.Aligned) →
      TreeWF pt root s.mem → Fresh (3 * ops.length) (tables root s.mem) s.alloc →
      Live pt.internalOffset (3 * ops.length) s.alloc →
      ∃ rs s', run pt ops s = .ok (rs, s') := by
  induction ops with
  | nil => intro s _ _ _ _; exact ⟨[], s, rfl⟩
  | cons op ops ih =>
      intro s hops hwf hfresh hlive
      rw [List.length_cons] at hfresh hlive
      obtain ⟨hout, hal⟩ := hops op List.mem_cons_self
      have hfresh₃ := fresh_mono hfresh (j := 3) (by omega)
      obtain ⟨r, s₁, h₁, -⟩ := step_total hout hal hwf hfresh₃
        (live_mono hlive (by omega))
      have hk := step_kept hout hwf hfresh₃ h₁
      obtain ⟨rs, s', h₂⟩ := ih (fun o ho => hops o (List.mem_cons_of_mem op ho)) hk.wf
        (hk.fresh _ (fresh_mono hfresh (by omega)))
        (hk.live _ (live_mono hlive (by omega)))
      exact ⟨r :: rs, s', run_cons.mpr ⟨r, s₁, rs, h₁, h₂, rfl⟩⟩

end KermolPageTableRun
