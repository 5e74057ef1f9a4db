import Mathlib.Data.Finmap
import Kermol.PageTableRunProofs

/-! # The page table is a finite map

    What the page table is for: a finite map from pages to a frame and its
    flags.  `PageMap` is that map, `SpecRun` what a run of operations does to
    it and what every operation answers.

    The refinement relation `Represents` reads the map off the leaf entries.
    One operation keeps it (`step_refines`), hence a run does (`run_refines`).
    At the end of a run both readers of the tables agree with the map: the
    code's `translate`, and the processor's walk from the frame that `load`
    writes to CR3. -/

namespace KermolPageMap

open RustEffect X86Paging KermolFrameAllocator KermolPageTable KermolPageTree
open KermolMapStep KermolPageTableRun RadixTree

/-! ## The abstract map -/

/-- What a page is mapped to. -/
structure Mapping where
  frame : PhysAddr
  flags : PageTableFlags
  aligned : frame.addr % PAGE_SIZE = 0
  present : flags.contains .PRESENT = true
deriving DecidableEq, Repr

/-- The physical address of a byte of a mapped page. -/
def Mapping.phys (m : Mapping) (v : VirtAddr) : PhysAddr :=
  ⟨m.frame.addr + v.addr % PAGE_SIZE, by
    have hal := m.aligned
    have hlt := m.frame.valid
    unfold PAGE_SIZE at *
    omega⟩

/-- What the processor should find: the frame, the flags, and exactly the
    rights that the flags give. -/
def Mapping.translation (m : Mapping) (v : VirtAddr) : Translation where
  phys := m.frame.addr + v.addr % PAGE_SIZE
  flags := m.flags
  writable := m.flags.contains .WRITABLE
  noExecute := m.flags.contains .NO_EXECUTE

/-- The page table as a finite map from page numbers. -/
abbrev PageMap := Finmap fun _ : Nat => Mapping

/-- Flags given to an operation contain `PRESENT`. -/
def Op.Present : Op → Prop
  | .map _ _ flags => flags.contains .PRESENT = true
  | .unmap _ => True
  | .updateFlags _ flags => flags.contains .PRESENT = true

/-- The operations a run may perform. -/
structure ValidOp (op : Op) : Prop where
  outside : op.Outside
  aligned : op.Aligned
  present : Op.Present op

instance : (op : Op) → Decidable (Op.Present op)
  | .map _ _ _ => inferInstanceAs (Decidable (_ = _))
  | .unmap _ => inferInstanceAs (Decidable True)
  | .updateFlags _ _ => inferInstanceAs (Decidable (_ = _))

instance (op : Op) : Decidable (ValidOp op) :=
  decidable_of_iff (op.Outside ∧ op.Aligned ∧ Op.Present op)
    ⟨fun h => ⟨h.1, h.2.1, h.2.2⟩, fun h => ⟨h.1, h.2, h.3⟩⟩

/-- Give an absent page a mapping. -/
def PageMap.mapPage (M : PageMap) (page : Nat) (m : Mapping) : PageMap :=
  if page ∈ M then M else M.insert page m

/-- Replace the flags of a present page. -/
def PageMap.reflag (M : PageMap) (page : Nat) (flags : PageTableFlags)
    (hf : flags.contains .PRESENT = true) : PageMap :=
  match M.lookup page with
  | none => M
  | some m => M.insert page ⟨m.frame, flags, m.aligned, hf⟩

/-- The map after an operation. -/
def after : (op : Op) → ValidOp op → PageMap → PageMap
  | .map from_ to_ flags, h, M =>
      M.mapPage to_.page ⟨from_, flags, h.aligned, h.present⟩
  | .unmap v, _, M => M.erase v.page
  | .updateFlags v flags, h, M => M.reflag v.page flags h.present

/-- What an operation answers.  Nothing is promised about `update_flags` on an
    absent page. -/
def Answers : Op → PageMap → Except PagingError Unit → Prop
  | .map _ to_ _, M, r =>
      r = if to_.page ∈ M then .error (.alreadyMapped to_) else .ok ()
  | .unmap v, M, r => r = if v.page ∈ M then .ok () else .error (.notMapped v)
  | .updateFlags v _, M, r => v.page ∈ M → r = .ok ()

/-- A run of operations on the map, with the answer of each. -/
inductive SpecRun : List Op → PageMap → List (Except PagingError Unit) → PageMap → Prop
    where
  | nil (M : PageMap) : SpecRun [] M [] M
  | cons {op : Op} {ops : List Op} {M M' : PageMap} {r : Except PagingError Unit}
      {rs : List (Except PagingError Unit)} (hop : ValidOp op) :
      Answers op M r → SpecRun ops (after op hop M) rs M' →
      SpecRun (op :: ops) M (r :: rs) M'

/-! ## The representation relation -/

/-- The entry that stands for a mapping. -/
def Mapping.entry (m : Mapping) : PageTableEntry := .ofAddr m.frame m.flags

/-- The leaf entries are the map. -/
def Represents (root : PhysAddr) (mem : PhysMem) (M : PageMap) : Prop :=
  ∀ v, pageIndex 4 v ≠ RECURSIVE →
    leafEntry root mem v = (M.lookup v.page).map Mapping.entry

theorem Mapping.isUnused_entry (m : Mapping) : m.entry.isUnused = false :=
  PageTableEntry.isUnused_ofAddr m.present

theorem Mapping.addr_entry (m : Mapping) : m.entry.addr = m.frame :=
  PageTableEntry.addr_ofAddr m.flags m.aligned

variable {pt : RecursivePageTable} {root : PhysAddr} {mem : PhysMem} {M : PageMap}

theorem Represents.mem_iff (h : Represents root mem M) {v : VirtAddr}
    (hv : pageIndex 4 v ≠ RECURSIVE) : v.page ∈ M ↔ leafEntry root mem v ≠ none := by
  rw [h v hv, ← Finmap.lookup_isSome]
  cases M.lookup v.page with
  | none => simp
  | some m => simp

/-- Writing the entry of a mapping inserts the mapping. -/
theorem represents_insert (h : Represents root mem M) (hwf : TreeWF pt root mem)
    {v : VirtAddr} {t : Nat} (hv : pageIndex 4 v ≠ RECURSIVE)
    (ht : walk child mem root.addr (tablePath v) = some t) (m : Mapping) :
    Represents root (setEntry mem t (pageIndex 1 v) m.entry) (M.insert v.page m) := by
  intro w hw
  by_cases hwv : w.page = v.page
  · rw [leafEntry_leaf_same hwf hv ht _ hwv, hwv, Finmap.lookup_insert,
      m.isUnused_entry]
    rfl
  · rw [leafEntry_leaf_other hwf hv hw ht _ hwv, h w hw,
      Finmap.lookup_insert_of_ne M hwv]

/-- Writing an unused entry erases the mapping. -/
theorem represents_erase (h : Represents root mem M) (hwf : TreeWF pt root mem)
    {v : VirtAddr} {t : Nat} (hv : pageIndex 4 v ≠ RECURSIVE)
    (ht : walk child mem root.addr (tablePath v) = some t) :
    Represents root (setEntry mem t (pageIndex 1 v) .new) (M.erase v.page) := by
  intro w hw
  by_cases hwv : w.page = v.page
  · rw [leafEntry_leaf_same hwf hv ht _ hwv, hwv, Finmap.lookup_erase]
    rfl
  · rw [leafEntry_leaf_other hwf hv hw ht _ hwv, h w hw, Finmap.lookup_erase_ne hwv]

/-! ## Refinement -/

section Refinement

variable {σ : Type} {s s' : PagingState σ} {r : Except PagingError Unit}

theorem unmap_refines {v : VirtAddr} (hv : pageIndex 4 v ≠ RECURSIVE)
    (hrep : Represents root s.mem M) (hwf : TreeWF pt root s.mem)
    (h : pt.unmap v s = .ok (r, s')) :
    r = (if v.page ∈ M then .ok () else .error (.notMapped v))
      ∧ Represents root s'.mem (M.erase v.page) := by
  have hmem := hrep.mem_iff hv
  rcases unmap_cases hv hwf with ⟨hleaf, heq⟩ | ⟨t, ht, hleaf, heq⟩
  · cases heq.symm.trans h
    have hnotin : ¬ v.page ∈ M := fun hin => hmem.mp hin hleaf
    rw [if_neg hnotin]
    refine ⟨rfl, ?_⟩
    intro w hw
    rw [hrep w hw]
    by_cases hwv : w.page = v.page
    · rw [hwv, Finmap.lookup_erase, Finmap.lookup_eq_none.mpr hnotin]
    · rw [Finmap.lookup_erase_ne hwv]
  · cases heq.symm.trans h
    rw [if_pos (hmem.mpr (by rw [hleaf]; exact nofun))]
    exact ⟨rfl, represents_erase hrep hwf hv ht⟩

theorem updateFlags_refines {v : VirtAddr} {flags : PageTableFlags}
    (hv : pageIndex 4 v ≠ RECURSIVE) (hpres : flags.contains .PRESENT = true)
    (hrep : Represents root s.mem M) (hwf : TreeWF pt root s.mem)
    (h : pt.updateFlags v flags s = .ok (r, s')) :
    (v.page ∈ M → r = .ok ())
      ∧ Represents root s'.mem (M.reflag v.page flags hpres) := by
  have hmem := hrep.mem_iff hv
  have hlook := hrep v hv
  unfold PageMap.reflag
  rcases updateFlags_cases flags hv hwf with ⟨hleaf, heq⟩ | ⟨t, ht, hleaf, heq⟩
  · cases heq.symm.trans h
    have hnotin : ¬ v.page ∈ M := fun hin => hmem.mp hin hleaf
    rw [Finmap.lookup_eq_none.mpr hnotin]
    exact ⟨fun hin => absurd hin hnotin, hrep⟩
  · cases heq.symm.trans h
    refine ⟨fun _ => rfl, ?_⟩
    rw [hleaf] at hlook
    cases hm : M.lookup v.page with
    | none => rw [hm] at hlook; cases hlook
    | some m =>
        rw [hm] at hlook
        have hentry : s.mem t (pageIndex 1 v) = m.entry := Option.some.inj hlook
        -- the new flags are written over the frame read back from the entry
        rw [hentry, PageTableEntry.setFlags, m.addr_entry]
        exact represents_insert hrep hwf hv ht ⟨m.frame, flags, m.aligned, hpres⟩

variable [FrameAllocator σ]

/-- Linking tables does not change the map. -/
theorem represents_links (h : Represents root s.mem M) (hwf : TreeWF pt root s.mem)
    {v : VirtAddr} {n : Nat} (hv : pageIndex 4 v ≠ RECURSIVE)
    (hl : Links pt root v n s s') : Represents root s'.mem M := by
  intro w hw
  rw [(links_preserved hv hl hwf).leaf w hw]
  exact h w hw

theorem map_refines {from_ : PhysAddr} {to_ : VirtAddr} {flags : PageTableFlags}
    (hto : pageIndex 4 to_ ≠ RECURSIVE) (hal : from_.addr % PAGE_SIZE = 0)
    (hpres : flags.contains .PRESENT = true) (hrep : Represents root s.mem M)
    (hwf : TreeWF pt root s.mem) (hfresh : Fresh 3 (tables root s.mem) s.alloc)
    (h : pt.map from_ to_ flags s = .ok (r, s'))
    (hr : r ≠ .error .tableAllocationFailed) :
    r = (if to_.page ∈ M then .error (.alreadyMapped to_) else .ok ())
      ∧ Represents root s'.mem (M.mapPage to_.page ⟨from_, flags, hal, hpres⟩) := by
  have hmem := hrep.mem_iff hto
  unfold PageMap.mapPage
  cases map_cases hto hwf hfresh h with
  | alreadyMapped hleaf =>
      have hin : to_.page ∈ M := hmem.mpr (by rw [hleaf]; exact nofun)
      rw [if_pos hin, if_pos hin]
      exact ⟨rfl, hrep⟩
  | allocFailed _ _ _ _ => exact absurd rfl hr
  | mapped _ hlinks hleaf _ ht =>
      have hnotin : ¬ to_.page ∈ M := fun hin => hmem.mp hin hleaf
      rw [if_neg hnotin, if_neg hnotin]
      refine ⟨rfl, ?_⟩
      exact represents_insert (represents_links hrep hwf hto hlinks)
        (links_preserved hto hlinks hwf).wf hto ht ⟨from_, flags, hal, hpres⟩

/-- **STEP.**  An operation that does not run out of frames does to the tables
    what the specification does to the map, and answers as it does. -/
theorem step_refines {op : Op} (hop : ValidOp op) (hrep : Represents root s.mem M)
    (hwf : TreeWF pt root s.mem) (hfresh : Fresh 3 (tables root s.mem) s.alloc)
    (h : step pt op s = .ok (r, s')) (hr : r ≠ .error .tableAllocationFailed) :
    Answers op M r ∧ Represents root s'.mem (after op hop M) := by
  cases op with
  | map from_ to_ flags =>
      exact map_refines hop.outside hop.aligned hop.present hrep hwf hfresh h hr
  | unmap v => exact unmap_refines hop.outside hrep hwf h
  | updateFlags v flags =>
      exact updateFlags_refines hop.outside hop.present hrep hwf h

/-- **RUN.**  With an allocator that answers and never fails, every run of
    valid operations returns and is a run of the specification. -/
theorem run_refines {ops : List Op} :
    ∀ {s : PagingState σ} {M : PageMap}, (∀ op ∈ ops, ValidOp op) →
      Represents root s.mem M → TreeWF pt root s.mem →
      Fresh (3 * ops.length) (tables root s.mem) s.alloc →
      Live pt.internalOffset (3 * ops.length) s.alloc →
      NeverFails (3 * ops.length) s.alloc →
      ∃ rs s' M', run pt ops s = .ok (rs, s') ∧ SpecRun ops M rs M'
        ∧ Represents root s'.mem M' ∧ TreeWF pt root s'.mem := by
  induction ops with
  | nil =>
      intro s M _ hrep hwf _ _ _
      exact ⟨[], s, M, rfl, SpecRun.nil M, hrep, hwf⟩
  | cons op ops ih =>
      intro s M hops hrep hwf hfresh hlive hnf
      rw [List.length_cons] at hfresh hlive hnf
      have hop := hops op List.mem_cons_self
      have hfresh₃ := fresh_mono hfresh (j := 3) (by omega)
      obtain ⟨r, s₁, h₁, hne⟩ := step_total hop.outside hop.aligned hwf hfresh₃
        (live_mono hlive (by omega))
      obtain ⟨hans, hrep₁⟩ := step_refines hop hrep hwf hfresh₃ h₁
        (hne (neverFails_mono hnf (by omega)))
      have hk := step_kept hop.outside hwf hfresh₃ h₁
      obtain ⟨rs, s', M', h₂, hspec, hrep', hwf'⟩ :=
        ih (fun o ho => hops o (List.mem_cons_of_mem op ho)) hrep₁ hk.wf
          (hk.fresh _ (fresh_mono hfresh (by omega)))
          (hk.live _ (live_mono hlive (by omega)))
          (hk.neverFails _ (neverFails_mono hnf (by omega)))
      exact ⟨r :: rs, s', M', run_cons.mpr ⟨r, s₁, rs, h₁, h₂, rfl⟩,
        SpecRun.cons hop hans hspec, hrep', hwf'⟩

end Refinement

/-! ## The processor's view -/

/-- The upper three levels of the processor's walk lead to the level-1 table, if
    there is one. -/
theorem hardwareWalk_upper (hwf : TreeWF pt root mem) {v : VirtAddr}
    (hv : pageIndex 4 v ≠ RECURSIVE) :
    (walk child mem root.addr (tablePath v) = none ∧ hardwareWalk mem root v = none)
      ∨ ∃ n, walk child mem root.addr (tablePath v) = some n
        ∧ hardwareWalk mem root v = hardwareWalkFrom mem v 1 n true false := by
  have hpath {p q : List (Fin 512)} {i : Fin 512} (h : tablePath v = p ++ [i] ++ q) :
      p ++ [i] ∈ tablePaths := tablePath_prefix_mem hv h
  rw [hardwareWalk]
  rcases hardwareWalkFrom_inner hwf 3 (by omega) (hpath (p := []) rfl) rfl with
    ⟨hw, h⟩ | ⟨n₃, hw₃, h⟩
  · left
    refine ⟨?_, h⟩
    have hsplit : tablePath v = ([] ++ [pageIndex 4 v]) ++ [pageIndex 3 v, pageIndex 2 v] := rfl
    rw [hsplit, walk_append, hw]
    rfl
  rw [h]
  rcases hardwareWalkFrom_inner hwf 2 (by omega) (hpath rfl) hw₃ with
    ⟨hw, h⟩ | ⟨n₂, hw₂, h⟩
  · left
    refine ⟨?_, h⟩
    have hsplit : tablePath v = ([] ++ [pageIndex 4 v] ++ [pageIndex 3 v])
        ++ [pageIndex 2 v] := rfl
    rw [hsplit, walk_append, hw]
    rfl
  rw [h]
  exact hardwareWalkFrom_inner hwf 1 (by omega) (hpath rfl) hw₂

/-- The processor faults where there is no leaf entry. -/
theorem hardwareWalk_none (hwf : TreeWF pt root mem) {v : VirtAddr}
    (hv : pageIndex 4 v ≠ RECURSIVE) (h : leafEntry root mem v = none) :
    hardwareWalk mem root v = none := by
  rcases hardwareWalk_upper hwf hv with ⟨-, hwalk⟩ | ⟨n, hw, hwalk⟩
  · exact hwalk
  · rw [hwalk]
    rw [leafEntry_of_walk hw] at h
    have hu : (mem n (pageIndex 1 v)).isUnused = true := by
      by_contra hne
      rw [if_neg hne] at h
      cases h
    exact hardwareWalkFrom_unused (isUnused_iff.mp hu)

/-- The processor finds the mapping of a leaf entry, with the rights of the leaf
    entry alone. -/
theorem hardwareWalk_some (hwf : TreeWF pt root mem) {v : VirtAddr}
    (hv : pageIndex 4 v ≠ RECURSIVE) (m : Mapping)
    (h : leafEntry root mem v = some m.entry) :
    hardwareWalk mem root v = some (m.translation v) := by
  rcases hardwareWalk_upper hwf hv with ⟨hw, -⟩ | ⟨n, hw, hwalk⟩
  · rw [leafEntry_of_no_table hw] at h
    cases h
  rw [hwalk]
  rw [leafEntry_of_walk hw] at h
  have he : mem n (pageIndex 1 v) = m.entry := by
    split at h
    · cases h
    · exact Option.some.inj h
  have h0 : m.flags.bits.getLsbD 0 = true := by
    rw [← PageTableFlags.contains_bit (g := .PRESENT) (by decide) (by omega)]
    exact m.present
  rw [hardwareWalkFrom_leaf m.aligned he h0]
  -- the inner entries left both rights open, so the leaf alone decides them
  show some _ = some (m.translation v)
  rw [Mapping.translation,
    PageTableFlags.contains_bit (g := .WRITABLE) (k := 1) (by decide) (by omega),
    PageTableFlags.contains_bit (g := .NO_EXECUTE) (k := 63) (by decide) (by omega),
    Bool.true_and, Bool.false_or]
  rfl

/-- **THE PROCESSOR READS THE MAP.** -/
theorem hardwareWalk_eq (hwf : TreeWF pt root mem) (hrep : Represents root mem M)
    {v : VirtAddr} (hv : pageIndex 4 v ≠ RECURSIVE) :
    hardwareWalk mem root v = (M.lookup v.page).map fun m => m.translation v := by
  have hlook := hrep v hv
  cases hm : M.lookup v.page with
  | none =>
      rw [hm] at hlook
      exact hardwareWalk_none hwf hv hlook
  | some m =>
      rw [hm] at hlook
      exact hardwareWalk_some hwf hv m hlook

theorem physAt_entry (m : Mapping) (v : VirtAddr) : physAt m.entry v = m.phys v := by
  apply PhysAddr.ext
  show m.entry.addr.addr + _ = _
  rw [m.addr_entry]
  rfl

/-- `translate` reads the map. -/
theorem translate_map (hwf : TreeWF pt root mem) (hrep : Represents root mem M)
    {v : VirtAddr} (hv : pageIndex 4 v ≠ RECURSIVE) :
    pt.translate mem v = .ok ((M.lookup v.page).map fun m => m.phys v) := by
  rw [translate_eq hv hwf, hrep v hv, Option.map_map]
  congr 2
  funext m
  exact physAt_entry m v

/-! ## From `new` on -/

theorem represents_newMem (mem : PhysMem) (root : PhysAddr) :
    Represents root (newMem mem root) ∅ := by
  intro v hv
  rw [leafEntry_newMem hv, Finmap.lookup_empty]
  rfl

/-- **THE PAGE TABLE REFINES A FINITE MAP.**  `RecursivePageTable::new` and
    every run of valid operations after it return; the answers are those of
    the finite map, started empty; and at the end `translate` and the
    processor's walk from the frame that `load` writes to CR3 both read that
    map, at every address outside the recursive slot. -/
theorem pageTable_refines_pageMap {σ : Type} [FrameAllocator σ] (hhdm : HhdmResponse)
    (s : PagingState σ) (ops : List Op) (hops : ∀ op ∈ ops, ValidOp op)
    (hfresh : Fresh (3 * ops.length + 1) ∅ s.alloc)
    (hlive : Live hhdm.offset.addr (3 * ops.length + 1) s.alloc)
    (hnf : NeverFails (3 * ops.length + 1) s.alloc) :
    ∃ pt s₀ rs s' M root pt', RecursivePageTable.new hhdm s = .ok (pt, s₀)
      ∧ run pt ops s₀ = .ok (rs, s') ∧ SpecRun ops ∅ rs M
      ∧ pt.load = .ok (pt', root)
      ∧ ∀ v, pageIndex 4 v ≠ RECURSIVE →
        pt.translate s'.mem v = .ok ((M.lookup v.page).map fun m => m.phys v)
        ∧ hardwareWalk s'.mem root v
          = (M.lookup v.page).map fun m => m.translation v := by
  obtain ⟨pt, s₀, hnew⟩ := new_total (live_mono hlive (by omega))
    (neverFails_mono hnf (by omega))
  obtain ⟨root, halloc, hoff, hwf, hmem⟩ := new_cases hnew
  have hrep : Represents root s₀.mem ∅ := by
    rw [hmem]
    exact represents_newMem s.mem root
  -- the contract of the allocator after the call for the level-4 table
  have hfresh₀ : Fresh (3 * ops.length) (tables root s₀.mem) s₀.alloc :=
    fresh_new halloc hmem hfresh
  have hlive₀ : Live pt.internalOffset (3 * ops.length) s₀.alloc :=
    hoff ▸ live_new halloc hlive
  have hnf₀ : NeverFails (3 * ops.length) s₀.alloc := neverFails_new halloc hnf
  obtain ⟨rs, s', M, hrun, hspec, hrep', hwf'⟩ :=
    run_refines hops hrep hwf hfresh₀ hlive₀ hnf₀
  refine ⟨pt, s₀, rs, s', M, root, _, hnew, hrun, hspec, load_eq hwf, ?_⟩
  intro v hv
  exact ⟨translate_map hwf' hrep' hv, hardwareWalk_eq hwf' hrep' hv⟩

/-- Map a page twice, change its flags, unmap it, and map it again elsewhere. -/
def sampleOps : List Op :=
  let v : VirtAddr := samplePage
  [.map sampleFrame v flagsRw, .map ⟨0x201000, by decide⟩ v flagsR,
    .updateFlags v flagsR, .unmap v, .map ⟨0x201000, by decide⟩ v flagsRx]

theorem pageTable_refines_pageMap_sample :
    ∃ pt s₀ rs s' M root pt', RecursivePageTable.new sampleHhdm sampleState = .ok (pt, s₀)
      ∧ run pt sampleOps s₀ = .ok (rs, s') ∧ SpecRun sampleOps ∅ rs M
      ∧ pt.load = .ok (pt', root)
      ∧ ∀ v, pageIndex 4 v ≠ RECURSIVE →
        pt.translate s'.mem v = .ok ((M.lookup v.page).map fun m => m.phys v)
        ∧ hardwareWalk s'.mem root v
          = (M.lookup v.page).map fun m => m.translation v := by
  obtain ⟨hfresh, hlive, hnf⟩ :=
    sampleState_contract (k := 3 * sampleOps.length + 1) (by decide)
  exact pageTable_refines_pageMap sampleHhdm sampleState sampleOps (by decide)
    hfresh hlive hnf

end KermolPageMap
