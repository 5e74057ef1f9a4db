import Kermol.ContiguousProofs

/-! # Which addresses have a level-1 table

    A level-1 table serves a block of 2 MiB.  It is there once a `map` into the
    block has returned `Ok`, and it stays: `run_hasTable` is an equivalence over
    whole runs, failed `map`s included.

    The three operations on a single page treat an address without such a table
    differently.  `translate` answers `None` and `unmap` answers `NotMapped`,
    but `update_flags` falls through to `Ok`.  `agree_iff` says exactly where
    the three agree. -/

namespace KermolBlockTables

open RustEffect X86Paging KermolFrameAllocator KermolPageTable KermolPageTree
open KermolMapStep KermolPageTableRun KermolBootTables KermolContiguous RadixTree

/-- The block of 2 MiB that an address lies in. -/
def block (v : VirtAddr) : Nat := v.addr / 2 ^ 21

theorem tablePath_eq_iff {v w : VirtAddr} : tablePath w = tablePath v ↔ block w = block v := by
  constructor
  · intro h
    have hw : (1, w.addr / 2 ^ 21) ∈ tableBlocks w.addr := by simp [tableBlocks]
    have hv : (1, v.addr / 2 ^ 21) ∈ tableBlocks v.addr := by simp [tableBlocks]
    rw [← blockPath_one, ← blockPath_one] at h
    exact congrArg Prod.snd (blockPath_injective hw hv h)
  · intro h
    rw [← blockPath_one, ← blockPath_one]
    exact congrArg (fun b => blockPath (1, b)) h

/-- The level-1 table of the address exists. -/
def HasTable (root : PhysAddr) (mem : PhysMem) (v : VirtAddr) : Prop :=
  walk child mem root.addr (tablePath v) ≠ none

variable {σ : Type} {pt : RecursivePageTable} {root : PhysAddr} {to_ v : VirtAddr}
  {s s' : PagingState σ}

theorem no_table_newMem (mem : PhysMem) (root : PhysAddr) (hv : pageIndex 4 v ≠ RECURSIVE) :
    walk child (newMem mem root) root.addr (tablePath v) = none := by
  rw [tablePath, walk_cons, newMem_root mem root hv]
  rfl

/-- A leaf write makes no table and takes none away. -/
theorem walk_leaf {t : Nat} (hwf : TreeWF pt root s.mem) (hto : pageIndex 4 to_ ≠ RECURSIVE)
    (hv : pageIndex 4 v ≠ RECURSIVE)
    (ht : walk child s.mem root.addr (tablePath to_) = some t) (e : PageTableEntry) :
    walk child (setEntry s.mem t (pageIndex 1 to_) e) root.addr (tablePath v)
      = walk child s.mem root.addr (tablePath v) :=
  walk_setEntry_leaf prefixClosed_tablePaths hwf.unshared e (tablePath_mem hto) ht
    (tablePath_snoc_notMem to_ _) (tablePath_mem hv)

/-! ## Where the operations agree -/

/-- `update_flags` and `unmap` answer `NotMapped` exactly where `translate`
    answers `None`. -/
structure Agree (pt : RecursivePageTable) (v : VirtAddr) (flags : PageTableFlags)
    (s : PagingState σ) : Prop where
  updateFlags : (∃ s', pt.updateFlags v flags s = .ok (.error (.notMapped v), s'))
    ↔ pt.translate s.mem v = .ok none
  unmap : (∃ s', pt.unmap v s = .ok (.error (.notMapped v), s'))
    ↔ pt.translate s.mem v = .ok none

/-- `unmap` agrees with `translate` everywhere. -/
theorem unmap_agrees (hv : pageIndex 4 v ≠ RECURSIVE) (hwf : TreeWF pt root s.mem) :
    (∃ s', pt.unmap v s = .ok (.error (.notMapped v), s'))
      ↔ pt.translate s.mem v = .ok none := by
  rw [translate_eq_none hv hwf]
  rcases unmap_cases hv hwf with ⟨hnone, heq⟩ | ⟨t, -, hleaf, heq⟩
  · exact iff_of_true ⟨s, heq⟩ hnone
  · refine iff_of_false ?_ (by rw [hleaf]; exact nofun)
    rintro ⟨s', h⟩
    cases heq.symm.trans h

/-- **ONE STATE.**  The operations agree at an address exactly if its level-1
    table exists. -/
theorem agree_iff_hasTable (flags : PageTableFlags) (hv : pageIndex 4 v ≠ RECURSIVE)
    (hwf : TreeWF pt root s.mem) : Agree pt v flags s ↔ HasTable root s.mem v := by
  have hcases := updateFlags_cases flags hv hwf
  constructor
  · intro hagree hmissing
    -- without the table `update_flags` falls through to `Ok`
    rcases hcases with ⟨hnone, heq⟩ | ⟨t, ht, -, -⟩
    · rw [if_pos hmissing] at heq
      obtain ⟨s', h⟩ := hagree.updateFlags.mpr ((translate_eq_none hv hwf).mpr hnone)
      cases heq.symm.trans h
    · cases hmissing.symm.trans ht
  · intro htable
    refine ⟨?_, unmap_agrees hv hwf⟩
    rw [translate_eq_none hv hwf]
    rcases hcases with ⟨hnone, heq⟩ | ⟨t, -, hleaf, heq⟩
    · rw [if_neg htable] at heq
      exact iff_of_true ⟨s, heq⟩ hnone
    · refine iff_of_false ?_ (by rw [hleaf]; exact nofun)
      rintro ⟨s', h⟩
      cases heq.symm.trans h

variable [FrameAllocator σ]

/-! ## One `map` -/

/-- On the way to one block no table of another block is made. -/
theorem linkStep_other (hto : pageIndex 4 to_ ≠ RECURSIVE) (hv : pageIndex 4 v ≠ RECURSIVE)
    (hwf : TreeWF pt root s.mem) (hne : tablePath v ≠ tablePath to_)
    (h : LinkStep pt root to_ s s') :
    walk child s'.mem root.addr (tablePath v) = walk child s.mem root.addr (tablePath v) := by
  cases h with
  | fail _ _ => rfl
  | @link p q i n f a' hp hn hi ha hal hcan hfr =>
      have hl := linkable hto hp hn hi hal hfr
      have hwalk := walk_link prefixClosed_tablePaths hwf.unshared hl (tablePath_mem hv)
      rw [if_neg ?_] at hwalk
      · exact hwalk
      · -- both paths have three indices, so nothing is left behind `i`
        intro heq
        have hlen := congrArg List.length hp
        rw [List.length_append, List.length_cons] at hlen
        have hlen' := congrArg List.length heq
        rw [List.length_append, List.length_singleton] at hlen'
        have hthree : (tablePath v).length = 3 := rfl
        have hthree' : (tablePath to_).length = 3 := rfl
        have hq : q = [] := List.eq_nil_of_length_eq_zero (by omega)
        exact hne (by rw [heq, hp, hq])

theorem links_other (hto : pageIndex 4 to_ ≠ RECURSIVE) (hv : pageIndex 4 v ≠ RECURSIVE)
    (hne : tablePath v ≠ tablePath to_) {n : Nat} (h : Links pt root to_ n s s') :
    TreeWF pt root s.mem →
      walk child s'.mem root.addr (tablePath v) = walk child s.mem root.addr (tablePath v) := by
  induction h with
  | refl s => exact fun _ => rfl
  | step hstep _ ih =>
      intro hwf
      rw [ih (linkStep_preserved hto hwf hstep).wf, linkStep_other hto hv hwf hne hstep]

/-- The creation loop that runs out of frames has not made the level-1
    table. -/
theorem createLevels_failed (hto : pageIndex 4 to_ ≠ RECURSIVE) {levels : List Nat}
    (hlv : ∀ l ∈ levels, 1 ≤ l ∧ l ≤ 4) :
    ∀ {p : List (Fin 512)} {current : VirtAddr} {s s' : PagingState σ} {e : PagingError},
      TreeWF pt root s.mem → Fresh levels.length (tables root s.mem) s.alloc →
      tablePath to_ = p ++ levels.map (fun l => pageIndex l to_) →
      walk child s.mem root.addr p = some (pt.frameOf current) →
      pt.createLevels to_ levels current s = .ok (.error e, s') →
      walk child s'.mem root.addr (tablePath to_) = none := by
  induction levels with
  | nil =>
      intro p current s s' e _ _ _ _ h
      cases h
  | cons level rest ih =>
      intro p current s s' e hwf hfresh hp hn h
      obtain ⟨h1, h4⟩ := hlv level List.mem_cons_self
      obtain ⟨hu, hcase⟩ := createLevels_cons_cases h1 h4 h
      rw [List.map_cons] at hp
      rcases hcase with ⟨_, a', ha, -, rfl⟩ | ⟨f, a', next, ha, hal, hnext, h⟩
      · exact walk_below_unused hp hn hu
      · obtain ⟨hfr, -⟩ := hfresh _ _ ha
        have hdown := descend hwf hto hp hn hu ha hal hnext hfr
        have hpres := linkStep_preserved hto hwf hdown.step
        exact ih (fun l hl => hlv l (List.mem_cons_of_mem level hl)) hpres.wf
          (hpres.fresh rest.length hfresh) (path_down hp) hdown.found h

/-- `map` that runs out of frames has not made the level-1 table. -/
theorem map_failed_no_table {from_ : PhysAddr} {flags : PageTableFlags}
    (hto : pageIndex 4 to_ ≠ RECURSIVE) (hwf : TreeWF pt root s.mem)
    (hfresh : Fresh 3 (tables root s.mem) s.alloc)
    (h : pt.map from_ to_ flags s = .ok (.error .tableAllocationFailed, s')) :
    walk child s'.mem root.addr (tablePath to_) = none := by
  rw [map_eq_mapFrom hto] at h
  obtain ⟨level, table, hf, heq⟩ := mapFrom_eq from_ flags hto hwf
  rw [heq] at h
  have hlow := hf.low
  have hhigh := hf.high
  have hlen : (List.range' 2 (level - 1)).reverse.length = level - 1 := by simp
  rcases andThen_cases h with ⟨e, hcreate, -⟩ | ⟨current, s₁, -, hleaf⟩
  · exact createLevels_failed hto (creation_levels hhigh) hwf (fresh_mono hfresh (by omega))
      (creation_path hlow hhigh to_) hf.found hcreate
  · rcases mapLeaf_cases hleaf with ⟨hr, -, -⟩ | ⟨hr, -, -, -⟩
    · cases hr
    · cases hr

/-! ## One operation, and runs -/

/-- The operation is a `map` into the block that returned `Ok`. -/
def Opens (v : VirtAddr) (op : Op) (r : Except PagingError Unit) : Prop :=
  r = .ok () ∧ ∃ from_ to_ flags, op = .map from_ to_ flags ∧ block to_ = block v

/-- An operation that opens nothing and leaves the path as it was. -/
theorem hasTable_same {mem mem' : PhysMem} {op : Op} {r : Except PagingError Unit}
    (hno : ¬ Opens v op r)
    (hw : walk child mem' root.addr (tablePath v) = walk child mem root.addr (tablePath v)) :
    HasTable root mem' v ↔ HasTable root mem v ∨ Opens v op r := by
  rw [HasTable, HasTable, hw, or_iff_left hno]

theorem map_hasTable {from_ : PhysAddr} {flags : PageTableFlags} {r : Except PagingError Unit}
    (hto : pageIndex 4 to_ ≠ RECURSIVE) (hv : pageIndex 4 v ≠ RECURSIVE)
    (hwf : TreeWF pt root s.mem) (hfresh : Fresh 3 (tables root s.mem) s.alloc)
    (h : pt.map from_ to_ flags s = .ok (r, s')) :
    HasTable root s'.mem v ↔ HasTable root s.mem v ∨ Opens v (.map from_ to_ flags) r := by
  cases map_cases hto hwf hfresh h with
  | alreadyMapped _ => exact hasTable_same (fun ho => by cases ho.1) rfl
  | allocFailed _ hlinks _ hpos =>
      refine hasTable_same (fun ho => by cases ho.1) ?_
      by_cases hpath : tablePath v = tablePath to_
      · rw [hpath, map_failed_no_table hto hwf hfresh h, links_missing hlinks hpos]
      · exact links_other hto hv hpath hlinks hwf
  | @mapped n t s₁ _ hlinks _ _ ht =>
      have hwf₁ := (links_preserved hto hlinks hwf).wf
      have hleaf := walk_leaf hwf₁ hto hv ht (.ofAddr from_ flags)
      by_cases hpath : tablePath v = tablePath to_
      · refine iff_of_true ?_ (Or.inr ⟨rfl, from_, to_, flags, rfl, ?_⟩)
        · rw [HasTable, hleaf, hpath, ht]
          exact nofun
        · exact tablePath_eq_iff.mp hpath.symm
      · refine hasTable_same ?_ (hleaf.trans (links_other hto hv hpath hlinks hwf))
        rintro ⟨-, _, _, _, heq, hblock⟩
        cases heq
        exact hpath (tablePath_eq_iff.mpr hblock).symm

/-- **STEP.**  An operation makes the level-1 table of an address exactly if it
    is a `map` into its block that returns `Ok`. -/
theorem step_hasTable {op : Op} {r : Except PagingError Unit} (hop : op.Outside)
    (hv : pageIndex 4 v ≠ RECURSIVE) (hwf : TreeWF pt root s.mem)
    (hfresh : Fresh 3 (tables root s.mem) s.alloc) (h : step pt op s = .ok (r, s')) :
    HasTable root s'.mem v ↔ HasTable root s.mem v ∨ Opens v op r := by
  cases op with
  | map from_ to_ flags => exact map_hasTable hop hv hwf hfresh h
  | unmap w =>
      have hno : ¬ Opens v (.unmap w) r := by
        rintro ⟨-, _, _, _, heq, -⟩
        cases heq
      rcases unmap_cases hop hwf with ⟨_, heq⟩ | ⟨t, ht, _, heq⟩
      · cases heq.symm.trans h
        exact hasTable_same hno rfl
      · cases heq.symm.trans h
        exact hasTable_same hno (walk_leaf hwf hop hv ht _)
  | updateFlags w flags =>
      have hno : ¬ Opens v (.updateFlags w flags) r := by
        rintro ⟨-, _, _, _, heq, -⟩
        cases heq
      rcases updateFlags_cases flags hop hwf with ⟨_, heq⟩ | ⟨t, ht, _, heq⟩
      · cases heq.symm.trans h
        exact hasTable_same hno rfl
      · cases heq.symm.trans h
        exact hasTable_same hno (walk_leaf hwf hop hv ht _)

/-- Some `map` of the run into the block of the address returned `Ok`. -/
def Opened (v : VirtAddr) : List Op → List (Except PagingError Unit) → Prop
  | op :: ops, r :: rs => Opens v op r ∨ Opened v ops rs
  | _, _ => False

/-- **RUN.** -/
theorem run_hasTable {ops : List Op} (hv : pageIndex 4 v ≠ RECURSIVE) :
    ∀ {s s' : PagingState σ} {rs : List (Except PagingError Unit)},
      (∀ op ∈ ops, op.Outside) → TreeWF pt root s.mem →
      Fresh (3 * ops.length) (tables root s.mem) s.alloc →
      run pt ops s = .ok (rs, s') →
      (HasTable root s'.mem v ↔ HasTable root s.mem v ∨ Opened v ops rs) := by
  induction ops with
  | nil =>
      intro s s' rs _ _ _ h
      cases h
      exact (or_iff_left id).symm
  | cons op ops ih =>
      intro s s' rs hops hwf hfresh h
      obtain ⟨r, s₁, rs', h₁, h₂, rfl⟩ := run_cons.mp h
      rw [List.length_cons] at hfresh
      have hop := hops op List.mem_cons_self
      have hfresh₃ := fresh_mono hfresh (j := 3) (by omega)
      have hk := step_kept hop hwf hfresh₃ h₁
      rw [ih (fun o ho => hops o (List.mem_cons_of_mem op ho)) hk.wf
        (hk.fresh _ (fresh_mono hfresh (by omega))) h₂,
        step_hasTable hop hv hwf hfresh₃ h₁, or_assoc]
      rfl

/-- **WHERE THE OPERATIONS AGREE, EXACTLY.**  In every state reached from `new`
    outside the recursive slot, `update_flags`, `unmap` and `translate` agree
    about an address if and only if an earlier `map` into its block of 2 MiB
    returned `Ok`. -/
theorem agree_iff (hhdm : HhdmResponse) (s s₀ s₁ : PagingState σ) (pt : RecursivePageTable)
    (ops : List Op) (rs : List (Except PagingError Unit)) (v : VirtAddr)
    (flags : PageTableFlags) (hnew : RecursivePageTable.new hhdm s = .ok (pt, s₀))
    (hfresh : Fresh (3 * ops.length + 1) ∅ s.alloc) (hops : ∀ op ∈ ops, op.Outside)
    (hrun : run pt ops s₀ = .ok (rs, s₁)) (hv : pageIndex 4 v ≠ RECURSIVE) :
    Agree pt v flags s₁ ↔ Opened v ops rs := by
  obtain ⟨root, halloc, -, hwf, hmem⟩ := new_cases hnew
  have hfresh₀ := fresh_new halloc hmem hfresh
  have hkept := run_kept hops hwf hfresh₀ hrun
  have hempty : ¬ HasTable root s₀.mem v := by
    rw [hmem]
    exact fun htable => htable (no_table_newMem s.mem root hv)
  rw [agree_iff_hasTable flags hv hkept.wf, run_hasTable hv hops hwf hfresh₀ hrun,
    or_iff_right hempty]

/-- A page in the block of `samplePage` that was never mapped. -/
def sampleNeighbour : VirtAddr := ⟨0xFFFFE00000004000, by decide⟩

def sampleRun : List Op := [.map sampleFrame samplePage flagsRw, .unmap samplePage]

theorem agree_iff_sample :
    ∃ pt s₀ s₁, RecursivePageTable.new sampleHhdm sampleState = .ok (pt, s₀)
      ∧ run pt sampleRun s₀ = .ok ([.ok (), .ok ()], s₁)
      ∧ Agree pt sampleNeighbour flagsRw s₁ := by
  obtain ⟨hfresh, -, -⟩ :=
    sampleState_contract (k := 3 * sampleRun.length + 1) (by decide)
  have hresults : (show Panics _ from do
      let (pt, s₀) ← RecursivePageTable.new sampleHhdm sampleState
      let (rs, _) ← run pt sampleRun s₀
      return rs) = .ok [.ok (), .ok ()] := by decide +kernel
  obtain ⟨⟨pt, s₀⟩, hnew, hrest⟩ := bind_eq_ok.mp hresults
  obtain ⟨⟨rs, s₁⟩, hrun, hrs⟩ := bind_eq_ok.mp hrest
  cases hrs
  refine ⟨pt, s₀, s₁, hnew, hrun, ?_⟩
  refine (agree_iff sampleHhdm sampleState s₀ s₁ pt sampleRun _ sampleNeighbour flagsRw hnew
    hfresh (by decide) hrun (by decide)).mpr ?_
  exact Or.inl ⟨rfl, _, _, _, rfl, by decide⟩

/-- Right after `new`, nothing is mapped at address `0x1000`; `unmap` says so,
    and `update_flags` returns `Ok`. -/
theorem update_flags_of_nothing :
    ∃ pt s₀, RecursivePageTable.new sampleHhdm sampleState = .ok (pt, s₀)
      ∧ pt.translate s₀.mem ⟨0x1000, by decide⟩ = .ok none
      ∧ pt.unmap ⟨0x1000, by decide⟩ s₀
        = .ok (.error (.notMapped ⟨0x1000, by decide⟩), s₀)
      ∧ pt.updateFlags ⟨0x1000, by decide⟩ flagsRw s₀ = .ok (.ok (), s₀)
      ∧ ¬ Agree pt ⟨0x1000, by decide⟩ flagsRw s₀ := by
  obtain ⟨-, hlive, hnf⟩ := sampleState_contract (k := 1) (by decide)
  obtain ⟨pt, s₀, hnew⟩ := new_total hlive hnf
  obtain ⟨root, -, -, hwf, hmem⟩ := new_cases hnew
  have hv : pageIndex 4 ⟨0x1000, by decide⟩ ≠ RECURSIVE := by decide
  have hmissing : walk child s₀.mem root.addr (tablePath ⟨0x1000, by decide⟩) = none := by
    rw [hmem]
    exact no_table_newMem sampleState.mem root hv
  have hnone := leafEntry_of_no_table hmissing
  refine ⟨pt, s₀, hnew, (translate_eq_none hv hwf).mpr hnone, ?_, ?_, ?_⟩
  · rcases unmap_cases hv hwf with ⟨-, heq⟩ | ⟨t, ht, -, -⟩
    · exact heq
    · cases hmissing.symm.trans ht
  · rcases updateFlags_cases flagsRw hv hwf with ⟨-, heq⟩ | ⟨t, ht, -, -⟩
    · rw [if_pos hmissing] at heq
      exact heq
    · cases hmissing.symm.trans ht
  · exact fun hagree => (agree_iff_hasTable flagsRw hv hwf).mp hagree hmissing

end KermolBlockTables
