import Kermol.PageTableRunProofs

/-! # The recursive slot

    Entry 510 of the level-4 table points back to the level-4 table.  `map`
    refuses addresses whose walk starts there; `unmap` and `update_flags` do
    not.  For them a walk through the slot sees an upper table as a level-1
    table, so they can overwrite its entries, the slot itself included.

    `run_protected`: the slot survives every run in which those two
    operations find no entry when they are sent through it.
    `hardwareWalk_LEVEL4`: the pointer that `load` installs does not spell the
    slot's index at every level, so the walk of it goes through the slot once
    and then down the branch of index 511. -/

namespace KermolRecursiveSlot

open RustEffect X86Paging KermolFrameAllocator KermolPageTable KermolPageTree
open KermolMapStep KermolPageTableRun RadixTree

variable {pt : RecursivePageTable} {root : PhysAddr} {mem : PhysMem}

/-! ## Runs that leave the slot alone -/

section Runs

variable {σ : Type} {s s' : PagingState σ}

/-- What an operation sent through the recursive slot must meet: `map` guards
    itself, the other two must find no entry. -/
def SlotClear (pt : RecursivePageTable) (s : PagingState σ) : Op → Prop
  | .map _ _ _ => True
  | .unmap v => pageIndex 4 v = RECURSIVE → pt.translate s.mem v = .ok none
  | .updateFlags v _ => pageIndex 4 v = RECURSIVE → pt.translate s.mem v = .ok none

/-- An address that does not translate has no level-1 table, or an unused
    entry in it. -/
theorem translate_none {v : VirtAddr} (h : pt.translate mem v = .ok none) :
    pt.getPageTable mem 1 v = .ok none
      ∨ ∃ table, pt.getPageTable mem 1 v = .ok (some table)
        ∧ (mem (pt.frameOf table) (pageIndex 1 v)).isUnused = true := by
  unfold RecursivePageTable.translate at h
  obtain ⟨t, ht, h⟩ := bind_eq_ok.mp h
  cases t with
  | none => exact Or.inl ht
  | some table =>
      right
      refine ⟨table, ht, ?_⟩
      dsimp only at h
      rw [getPageIndex_eq (by omega) (by omega), ok_bind] at h
      by_contra hu
      rw [if_neg hu] at h
      obtain ⟨p, -, h⟩ := bind_eq_ok.mp h
      cases h

theorem unmap_untranslated {v : VirtAddr} (h : pt.translate s.mem v = .ok none) :
    pt.unmap v s = .ok (.error (.notMapped v), s) := by
  rw [RecursivePageTable.unmap]
  rcases translate_none h with ht | ⟨table, ht, hu⟩
  · rw [ht]
    rfl
  · rw [ht, ok_bind]
    dsimp only
    rw [getPageIndex_eq (by omega) (by omega), ok_bind, if_pos hu]
    rfl

theorem updateFlags_untranslated {v : VirtAddr} (flags : PageTableFlags)
    (h : pt.translate s.mem v = .ok none) :
    ∃ r, pt.updateFlags v flags s = .ok (r, s) := by
  rw [RecursivePageTable.updateFlags]
  rcases translate_none h with ht | ⟨table, ht, hu⟩
  · rw [ht]
    exact ⟨_, rfl⟩
  · rw [ht, ok_bind]
    dsimp only
    rw [getPageIndex_eq (by omega) (by omega), ok_bind, if_pos hu]
    exact ⟨_, rfl⟩

variable [FrameAllocator σ]

/-- Every step of the run meets the condition in the state it starts from. -/
def RunClear (pt : RecursivePageTable) : List Op → PagingState σ → Prop
  | [], _ => True
  | op :: ops, s =>
      SlotClear pt s op ∧ ∀ r s', step pt op s = .ok (r, s') → RunClear pt ops s'

/-- An operation sent through the slot that finds nothing changes nothing. -/
theorem step_slot_unchanged {op : Op} {r : Except PagingError Unit}
    (hin : pageIndex 4 op.address = RECURSIVE) (hclear : SlotClear pt s op)
    (h : step pt op s = .ok (r, s')) : s' = s := by
  cases op with
  | map from_ to_ flags =>
      cases (map_reserved hin).symm.trans h
      rfl
  | unmap v =>
      cases (unmap_untranslated (hclear hin)).symm.trans h
      rfl
  | updateFlags v flags =>
      obtain ⟨r', heq⟩ := updateFlags_untranslated flags (hclear hin)
      cases heq.symm.trans h
      rfl

theorem step_clear_kept {op : Op} {r : Except PagingError Unit}
    (hclear : SlotClear pt s op) (hwf : TreeWF pt root s.mem)
    (hfresh : Fresh 3 (tables root s.mem) s.alloc)
    (h : step pt op s = .ok (r, s')) : Kept pt root 3 s s' := by
  by_cases hin : pageIndex 4 op.address = RECURSIVE
  · rw [step_slot_unchanged hin hclear h]
    exact kept_mono (kept_refl hwf) (by omega)
  · exact step_kept hin hwf hfresh h

theorem run_clear_kept {ops : List Op} :
    ∀ {s s' : PagingState σ} {rs : List (Except PagingError Unit)},
      RunClear pt ops s → TreeWF pt root s.mem →
      Fresh (3 * ops.length) (tables root s.mem) s.alloc →
      run pt ops s = .ok (rs, s') → Kept pt root (3 * ops.length) s s' := by
  induction ops with
  | nil =>
      intro s s' rs _ hwf _ h
      cases h
      exact kept_refl hwf
  | cons op ops ih =>
      rintro s s' rs ⟨hclear, hrest⟩ hwf hfresh h
      obtain ⟨r, s₁, rs', h₁, h₂, -⟩ := run_cons.mp h
      rw [List.length_cons] at hfresh ⊢
      have hk := step_clear_kept hclear hwf (fresh_mono hfresh (by omega)) h₁
      have hk' := ih (hrest r s₁ h₁) hk.wf
        (hk.fresh _ (fresh_mono hfresh (by omega))) h₂
      exact kept_mono (kept_trans hk hk') (by omega)

theorem runClear_append {ops₁ ops₂ : List Op} :
    ∀ {s s₁ : PagingState σ} {rs : List (Except PagingError Unit)},
      RunClear pt (ops₁ ++ ops₂) s → run pt ops₁ s = .ok (rs, s₁) →
      RunClear pt ops₁ s ∧ RunClear pt ops₂ s₁ := by
  induction ops₁ with
  | nil =>
      intro s s₁ rs hc h
      cases h
      exact ⟨trivial, hc⟩
  | cons op ops₁ ih =>
      rintro s s₁ rs ⟨hclear, hrest⟩ h
      obtain ⟨r, s₀, rs', h₀, h, -⟩ := run_cons.mp h
      refine ⟨⟨hclear, ?_⟩, (ih (hrest r s₀ h₀) h).2⟩
      intro r' s' h'
      cases h₀.symm.trans h'
      exact (ih (hrest r s₀ h₀) h).1

/-- **THE SLOT IS PROTECTED** in every run from `new` whose `unmap` and
    `update_flags` operations find no entry through it: `new` fills the slot,
    every step leaves it as it was, a step sent through the slot changes no
    translation outside it, and a `map` sent there is refused by name and
    changes nothing. -/
theorem run_protected {hhdm : HhdmResponse} {s s₀ : PagingState σ}
    {pt : RecursivePageTable} {ops : List Op}
    (hnew : RecursivePageTable.new hhdm s = .ok (pt, s₀))
    (hfresh : Fresh (3 * ops.length + 1) ∅ s.alloc) (hclear : RunClear pt ops s₀) :
    ∃ root pt', pt.load = .ok (pt', root)
      ∧ s₀.mem root.addr RECURSIVE = PageTableEntry.ofAddr root flagsRw
      ∧ ∀ ops₁ op ops₂ rs s₁ r s₂, ops = ops₁ ++ op :: ops₂ →
        run pt ops₁ s₀ = .ok (rs, s₁) → step pt op s₁ = .ok (r, s₂) →
        s₂.mem root.addr RECURSIVE = PageTableEntry.ofAddr root flagsRw
        ∧ (pageIndex 4 op.address = RECURSIVE → ∀ v, pageIndex 4 v ≠ RECURSIVE →
            pt.translate s₂.mem v = pt.translate s₁.mem v)
        ∧ ∀ from_ to_ flags, op = .map from_ to_ flags → pageIndex 4 to_ = RECURSIVE →
            r = .error (.attemptedMappingToReserved to_) ∧ s₂ = s₁ := by
  obtain ⟨root, halloc, -, hwf, hmem⟩ := new_cases hnew
  have hfresh₀ := fresh_new halloc hmem hfresh
  refine ⟨root, _, load_eq hwf, hwf.slot, ?_⟩
  rintro ops₁ op ops₂ rs s₁ r s₂ rfl hrun hstep
  obtain ⟨hclear₁, hclear₂, -⟩ := runClear_append hclear hrun
  rw [List.length_append, List.length_cons] at hfresh₀
  have hk₁ := run_clear_kept hclear₁ hwf (fresh_mono hfresh₀ (by omega)) hrun
  have hk₂ := step_clear_kept hclear₂ hk₁.wf
    (hk₁.fresh 3 (fresh_mono hfresh₀ (by omega))) hstep
  refine ⟨hk₂.wf.slot, fun hin v _ => by rw [step_slot_unchanged hin hclear₂ hstep], ?_⟩
  rintro from_ to_ flags rfl hin
  cases (map_reserved hin).symm.trans hstep
  exact ⟨rfl, rfl⟩

end Runs

/-! ## Through the slot -/

/-- Walking through the slot leads back to the level-4 table. -/
theorem walk_slot (hwf : TreeWF pt root mem) :
    ∀ k, walk child mem root.addr (List.replicate k RECURSIVE) = some root.addr := by
  have hslot : child (mem root.addr RECURSIVE) = some root.addr := by
    rw [hwf.slot]
    exact child_ofAddr hwf.root_aligned flagsRw_present
  intro k
  induction k with
  | zero => rfl
  | succ k ih =>
      rw [List.replicate_succ, walk_cons, hslot]
      exact ih

/-- Also through the recursive slot, at most three steps lead to a table. -/
theorem walk_mem_tables (hwf : TreeWF pt root mem) {q : List (Fin 512)} :
    ∀ {n : Nat}, q.length ≤ 3 → walk child mem root.addr q = some n → n ∈ tables root mem := by
  induction q with
  | nil =>
      intro n _ hwalk
      cases hwalk
      exact TreeWF.root_mem
  | cons i q ih =>
      intro n hlen hwalk
      by_cases hi : i = RECURSIVE
      · subst hi
        rw [walk_cons, hwf.slot, child_ofAddr hwf.root_aligned flagsRw_present] at hwalk
        exact ih (by rw [List.length_cons] at hlen; omega) hwalk
      · exact ⟨i :: q, ⟨hlen, fun h => hi (Option.some.inj h)⟩, hwalk⟩

/-- `translate`, for every address. -/
theorem translate_walk (hwf : TreeWF pt root mem) (v : VirtAddr) (q : PhysAddr) :
    pt.translate mem v = .ok (some q)
      ↔ ∃ m, walk child mem root.addr (tablePath v) = some m
        ∧ (mem m (pageIndex 1 v)).isUnused = false ∧ q = physAt (mem m (pageIndex 1 v)) v := by
  have hreach : ∀ p q n, (tablePath v).take (4 - 1) = p ++ q →
      walk child mem (pt.frameOf pt.lvl4) p = some n → IsCanonical (n + pt.internalOffset) := by
    intro p q n hpath hwalk
    rw [hwf.frameOf_lvl4] at hwalk
    have hlen : p.length ≤ 3 := by
      have hlength := congrArg List.length hpath
      rw [List.length_append] at hlength
      have hthree : ((tablePath v).take (4 - 1)).length = 3 := rfl
      omega
    exact (hwf.reach n (walk_mem_tables hwf hlen hwalk)).2.2
  obtain ⟨t, ht⟩ : ∃ t, pt.getPageTable mem 1 v = .ok t :=
    RecursivePageTable.getPageTable_total (by omega) (by omega) hreach
  have hwalk := RecursivePageTable.getPageTable_eq (by omega) (by omega) ht
  rw [hwf.frameOf_lvl4] at hwalk
  have hpath : (tablePath v).take (4 - 1) = tablePath v := rfl
  rw [hpath] at hwalk
  rw [RecursivePageTable.translate, ht, ok_bind]
  cases t with
  | none =>
      refine iff_of_false (fun h => by cases h) ?_
      rintro ⟨m, hm, -⟩
      cases hwalk.symm.trans hm
  | some table =>
      dsimp only
      rw [getPageIndex_eq (by omega) (by omega), ok_bind]
      cases hu : (mem (pt.frameOf table) (pageIndex 1 v)).isUnused with
      | true =>
          refine iff_of_false (fun h => by cases h) ?_
          rintro ⟨m, hm, hused, -⟩
          cases hwalk.symm.trans hm
          rw [hu] at hused
          cases hused
      | false =>
          have hadd : (mem (pt.frameOf table) (pageIndex 1 v)).addr.add (v.addr % PAGE_SIZE)
              = .ok (physAt (mem (pt.frameOf table) (pageIndex 1 v)) v) :=
            PhysAddr.new_eq_ok.mpr rfl
          rw [if_neg Bool.false_ne_true, hadd, ok_bind]
          constructor
          · intro h
            cases h
            exact ⟨_, hwalk, hu, rfl⟩
          · rintro ⟨m, hm, -, rfl⟩
            cases hwalk.symm.trans hm
            rfl

/-- Any four indices are those of an address. -/
theorem exists_address (a b c i : Fin 512) :
    ∃ v : VirtAddr, tablePath v = [a, b, c] ∧ pageIndex 1 v = i := by
  obtain ⟨a, ha⟩ := a
  obtain ⟨b, hb⟩ := b
  obtain ⟨c, hc⟩ := c
  obtain ⟨i, hi⟩ := i
  -- the upper half of the level-4 table is the upper half of the address space
  obtain ⟨x, hcan, h₄, h₃, h₂, h₁⟩ : ∃ x, IsCanonical x ∧ x / 2 ^ 39 % 512 = a
      ∧ x / 2 ^ 30 % 512 = b ∧ x / 2 ^ 21 % 512 = c ∧ x / 2 ^ 12 % 512 = i := by
    by_cases hhalf : a < 256
    · refine ⟨((a * 512 + b) * 512 + c) * 2 ^ 21 + i * 2 ^ 12, Or.inl (by omega), by omega,
        by omega, by omega, by omega⟩
    · refine ⟨((a * 512 + b) * 512 + c) * 2 ^ 21 + i * 2 ^ 12 + (2 ^ 64 - 2 ^ 48),
        Or.inr (by omega), by omega, by omega, by omega, by omega⟩
  refine ⟨⟨x, hcan⟩, ?_, Fin.ext h₁⟩
  rw [tablePath]
  congr 1
  · exact Fin.ext h₄
  · congr 1
    · exact Fin.ext h₃
    · congr 1
      exact Fin.ext h₂

/-- The address with the slot's index at every level: the level-4 table seen
    through itself. -/
def slotAddress : VirtAddr := ⟨0xFFFFFF7FBFDFE000, by decide⟩

theorem tablePath_slotAddress : tablePath slotAddress = List.replicate 3 RECURSIVE := by
  decide

theorem pageIndex_slotAddress : pageIndex 1 slotAddress = RECURSIVE := by
  decide

/-- **THE MISSING GUARD.**  On every well-formed table `unmap` of the slot's
    own address succeeds and clears the slot. -/
theorem unmap_slotAddress {σ : Type} {s : PagingState σ} (hwf : TreeWF pt root s.mem) :
    pt.unmap slotAddress s
      = .ok (.ok (), ⟨setEntry s.mem root.addr RECURSIVE .new, s.alloc⟩) := by
  obtain ⟨t, ht⟩ : ∃ t, pt.getPageTable s.mem 1 slotAddress = .ok t := by
    refine RecursivePageTable.getPageTable_total (by omega) (by omega) ?_
    intro p q n hpq hn
    rw [tablePath_slotAddress] at hpq
    have hp : p = List.replicate p.length RECURSIVE :=
      (List.replicate_eq_append_iff.mp hpq).2.1
    rw [hwf.frameOf_lvl4, hp, walk_slot hwf] at hn
    cases hn
    exact hwf.lvl4 ▸ pt.lvl4.canonical
  have hw := getPageTable_walk hwf (by omega) (by omega) ht
  rw [show (tablePath slotAddress).take (4 - 1) = List.replicate 3 RECURSIVE from
    tablePath_slotAddress, walk_slot hwf] at hw
  cases t with
  | none => cases hw
  | some table =>
      have hframe : pt.frameOf table = root.addr := (Option.some.inj hw).symm
      have hused : (s.mem root.addr RECURSIVE).isUnused = false := by
        rw [hwf.slot]
        exact PageTableEntry.isUnused_ofAddr flagsRw_present
      rw [RecursivePageTable.unmap, ht, ok_bind]
      dsimp only
      rw [getPageIndex_eq (by omega) (by omega), ok_bind, hframe,
        pageIndex_slotAddress, if_neg (by rw [hused]; exact Bool.false_ne_true)]
      rfl

theorem slot_unprotected :
    ∃ pt s₀ pt' s', RecursivePageTable.new sampleHhdm sampleState = .ok (pt, s₀)
      ∧ pt.load = .ok (pt', ⟨0x100000, by decide⟩)
      ∧ s₀.mem 0x100000 RECURSIVE = .ofAddr ⟨0x100000, by decide⟩ flagsRw
      ∧ step pt (.unmap slotAddress) s₀ = .ok (.ok (), s')
      ∧ s'.mem 0x100000 RECURSIVE ≠ .ofAddr ⟨0x100000, by decide⟩ flagsRw := by
  obtain ⟨-, hlive, hnf⟩ := sampleState_contract (k := 1) (by decide)
  obtain ⟨pt, s₀, hnew⟩ := new_total hlive hnf
  obtain ⟨root, halloc, -, hwf, -⟩ := new_cases hnew
  obtain ⟨hroot, -⟩ := LinearFrameAllocator.alloc_eq_ok.mp halloc
  cases hroot
  refine ⟨pt, s₀, _, _, hnew, load_eq hwf, hwf.slot, unmap_slotAddress hwf, ?_⟩
  show setEntry s₀.mem 0x100000 RECURSIVE .new 0x100000 RECURSIVE ≠ _
  rw [setEntry_same]
  decide

/-- Behind the slot, a level-4 entry stands in for a level-3 entry: nothing is
    found where it is unused. -/
theorem translate_slot_none {v : VirtAddr} (hwf : TreeWF pt root mem)
    (h4 : pageIndex 4 v = RECURSIVE)
    (hunused : child (mem root.addr (pageIndex 3 v)) = none) :
    pt.translate mem v = .ok none := by
  have hstep : walk child mem root.addr [RECURSIVE, pageIndex 3 v] = none := by
    rw [show [RECURSIVE, pageIndex 3 v] = List.replicate 1 RECURSIVE ++ [pageIndex 3 v]
      from rfl, walk_snoc, walk_slot hwf]
    exact hunused
  have hpath : tablePath v = [RECURSIVE, pageIndex 3 v] ++ [pageIndex 2 v] := by
    rw [tablePath, h4]
    rfl
  have hnone : walk child mem root.addr (tablePath v) = none := by
    rw [hpath, walk_append, hstep]
    rfl
  obtain ⟨t, ht⟩ : ∃ t, pt.getPageTable mem 1 v = .ok t := by
    refine RecursivePageTable.getPageTable_total (by omega) (by omega) ?_
    intro p q n hpq hn
    rw [hwf.frameOf_lvl4] at hn
    -- the walk stands still in the level-4 table, and then it is over
    have hroot : n = root.addr := by
      rcases p with _ | ⟨i, _ | ⟨j, p'⟩⟩
      · exact (Option.some.inj hn).symm
      · have hi : i = RECURSIVE := by
          rw [tablePath, h4] at hpq
          exact (List.cons.inj hpq).1.symm
        rw [hi] at hn
        exact Option.some.inj (hn.symm.trans (walk_slot hwf 1))
      · have hij : [RECURSIVE, pageIndex 3 v] = [i, j] := by
          rw [tablePath, h4] at hpq
          rw [(List.cons.inj hpq).1, (List.cons.inj (List.cons.inj hpq).2).1]
        rw [show i :: j :: p' = [i, j] ++ p' from rfl, ← hij, walk_append, hstep] at hn
        cases hn
    rw [hroot]
    exact hwf.lvl4 ▸ pt.lvl4.canonical
  have hw := RecursivePageTable.getPageTable_eq (by omega) (by omega) ht
  rw [hwf.frameOf_lvl4] at hw
  have htnone : t = none := Option.map_eq_none_iff.mp (hw.symm.trans hnone)
  rw [RecursivePageTable.translate, ht, htnone]
  rfl

/-- Right after `new` nothing is found through the slot but the slot itself. -/
theorem translate_slot_newMem {v : VirtAddr} (hwf : TreeWF pt root (newMem mem root))
    (h4 : pageIndex 4 v = RECURSIVE) (h3 : pageIndex 3 v ≠ RECURSIVE) :
    pt.translate (newMem mem root) v = .ok none := by
  refine translate_slot_none hwf h4 ?_
  rw [newMem_root mem root h3]
  rfl

/-- A run through the slot at addresses that nothing is mapped at. -/
def sampleOps : List Op :=
  [.unmap slotView, .map sampleFrame slotAddress flagsRw, .map sampleFrame samplePage flagsRw]

theorem run_protected_sample :
    ∃ pt s₀ root pt', RecursivePageTable.new sampleHhdm sampleState = .ok (pt, s₀)
      ∧ RunClear pt sampleOps s₀ ∧ pt.load = .ok (pt', root)
      ∧ s₀.mem root.addr RECURSIVE = PageTableEntry.ofAddr root flagsRw := by
  obtain ⟨hfresh, hlive, hnf⟩ :=
    sampleState_contract (k := 3 * sampleOps.length + 1) (by decide)
  obtain ⟨pt, s₀, hnew⟩ := new_total (live_mono hlive (by omega))
    (neverFails_mono hnf (by omega))
  obtain ⟨root, -, -, hwf, hmem⟩ := new_cases hnew
  have hclear : RunClear pt sampleOps s₀ := by
    refine ⟨fun h4 => ?_, fun r s' _ => ⟨trivial, fun r s' _ => ⟨trivial, ?_⟩⟩⟩
    · rw [hmem] at hwf ⊢
      exact translate_slot_newMem hwf h4 (by decide)
    · exact fun _ _ _ => trivial
  obtain ⟨root', pt', hload, hslot, -⟩ := run_protected hnew hfresh hclear
  exact ⟨pt, s₀, root', pt', hnew, hclear, hload, hslot⟩

/-! ## The pointer that `load` installs -/

/-- `LEVEL4` spells index 510 at level 4 only: the walk goes through the slot
    once and then down the branch of index 511, one level short. -/
theorem hardwareWalk_LEVEL4 (hwf : TreeWF pt root mem) {t : Translation}
    (h : hardwareWalk mem root LEVEL4 = some t) :
    walk child mem root.addr [511, 511, 511] = some t.phys := by
  have hal : root.addr % 4096 = 0 := hwf.root_aligned
  have hslot : mem root.addr (pageIndex (3 + 1) LEVEL4) = .ofAddr root flagsRw := hwf.slot
  have h₁ : [] ++ [pageIndex (2 + 1) LEVEL4] ∈ tablePaths := ⟨by decide, by decide⟩
  have h₂ : ([] ++ [pageIndex (2 + 1) LEVEL4]) ++ [pageIndex (1 + 1) LEVEL4]
      ∈ tablePaths := ⟨by decide, by decide⟩
  have h₃ : (([] ++ [pageIndex (2 + 1) LEVEL4]) ++ [pageIndex (1 + 1) LEVEL4])
      ++ [pageIndex 1 LEVEL4] ∈ tablePaths := ⟨by decide, by decide⟩
  rw [hardwareWalk, hardwareWalkFrom_table (by omega) hal hslot (by decide) (by decide)] at h
  rcases hardwareWalkFrom_inner hwf 2 (by omega) h₁ rfl with
    ⟨-, he⟩ | ⟨n₃, hw₃, he⟩
  · rw [he] at h
    cases h
  rw [he] at h
  rcases hardwareWalkFrom_inner hwf 1 (by omega) h₂ hw₃ with ⟨-, he⟩ | ⟨n₂, hw₂, he⟩
  · rw [he] at h
    cases h
  rw [he] at h
  -- the last entry read belongs to a level-2 table, so it names a level-1 table
  rcases hwf.inner _ n₂ _ h₃ hw₂ with he | ⟨f, hfal, he⟩
  · rw [hardwareWalkFrom_unused he] at h
    cases h
  · rw [hardwareWalkFrom_leaf hfal he (by decide)] at h
    cases h
    rw [show [(511 : Fin 512), 511, 511]
      = (([] ++ [pageIndex (2 + 1) LEVEL4]) ++ [pageIndex (1 + 1) LEVEL4])
        ++ [pageIndex 1 LEVEL4] by decide, walk_snoc, hw₂]
    show child _ = some (f.addr + LEVEL4.addr % 4096)
    rw [he, child_ofAddr hfal flagsRwx_present]
    rfl

/-- The walk of `LEVEL4` arrives at the level-4 table. -/
def ReachesRoot (mem : PhysMem) (root : PhysAddr) : Prop :=
  ∃ t, hardwareWalk mem root LEVEL4 = some t ∧ t.phys = root.addr

theorem not_reachesRoot (hwf : TreeWF pt root mem) : ¬ ReachesRoot mem root := by
  rintro ⟨t, h, hphys⟩
  have hw := hardwareWalk_LEVEL4 hwf h
  exact hwf.ne_root (p := [511, 511, 511]) ⟨by decide, by decide⟩ nofun hw hphys

/-- **THE RECURSIVE POINTER IS WRONG.**  For no page table reachable from `new`
    does the walk of the pointer that `load` installs, from the frame it writes
    to CR3, arrive at the level-4 table. -/
theorem load_pointer_never_reaches_root {σ : Type} [FrameAllocator σ]
    {hhdm : HhdmResponse} {s s₀ s' : PagingState σ} {pt : RecursivePageTable}
    {ops : List Op} {rs : List (Except PagingError Unit)}
    (hnew : RecursivePageTable.new hhdm s = .ok (pt, s₀))
    (hfresh : Fresh (3 * ops.length + 1) ∅ s.alloc) (hops : ∀ op ∈ ops, op.Outside)
    (hrun : run pt ops s₀ = .ok (rs, s')) :
    ∃ pt' root, pt.load = .ok (pt', root) ∧ pt'.lvl4 = LEVEL4
      ∧ ¬ ReachesRoot s'.mem root := by
  obtain ⟨root, halloc, -, hwf, hmem⟩ := new_cases hnew
  have hk := run_kept hops hwf (fresh_new halloc hmem hfresh) hrun
  exact ⟨_, root, load_eq hwf, rfl, not_reachesRoot hk.wf⟩

/-- Map the last page of the address space. -/
def lastPageOps : List Op :=
  [.map sampleFrame ⟨0xFFFFFFFFFFFFF000, by decide⟩ flagsRw]

theorem load_pointer_never_reaches_root_sample :
    ∃ pt s₀ rs s' pt' root, RecursivePageTable.new sampleHhdm sampleState = .ok (pt, s₀)
      ∧ run pt lastPageOps s₀ = .ok (rs, s') ∧ pt.load = .ok (pt', root)
      ∧ pt'.lvl4 = LEVEL4 ∧ ¬ ReachesRoot s'.mem root := by
  obtain ⟨hfresh, hlive, hnf⟩ :=
    sampleState_contract (k := 3 * lastPageOps.length + 1) (by decide)
  obtain ⟨pt, s₀, hnew⟩ := new_total (live_mono hlive (by omega))
    (neverFails_mono hnf (by omega))
  obtain ⟨root, halloc, hoff, hwf, hmem⟩ := new_cases hnew
  have hlive₀ : Live pt.internalOffset (3 * lastPageOps.length) s₀.alloc :=
    hoff ▸ live_new halloc hlive
  have hops : ∀ op ∈ lastPageOps, op.Outside ∧ op.Aligned := by decide
  obtain ⟨rs, s', hrun⟩ := run_total hops hwf (fresh_new halloc hmem hfresh) hlive₀
  obtain ⟨pt', root', hload, hl4, hno⟩ :=
    load_pointer_never_reaches_root hnew hfresh (fun op hop => (hops op hop).1) hrun
  exact ⟨pt, s₀, rs, s', pt', root', hnew, hrun, hload, hl4, hno⟩

theorem load_pointer_fails_after_new :
    ∃ pt s₀ pt', RecursivePageTable.new sampleHhdm sampleState = .ok (pt, s₀)
      ∧ pt.load = .ok (pt', ⟨0x100000, by decide⟩)
      ∧ ¬ ReachesRoot s₀.mem ⟨0x100000, by decide⟩ := by
  obtain ⟨-, hlive, hnf⟩ := sampleState_contract (k := 1) (by decide)
  obtain ⟨pt, s₀, hnew⟩ := new_total hlive hnf
  obtain ⟨root, halloc, -, hwf, -⟩ := new_cases hnew
  obtain ⟨hroot, -⟩ := LinearFrameAllocator.alloc_eq_ok.mp halloc
  cases hroot
  exact ⟨pt, s₀, _, hnew, load_eq hwf, not_reachesRoot hwf⟩

end KermolRecursiveSlot
