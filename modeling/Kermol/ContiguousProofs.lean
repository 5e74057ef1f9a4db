import Kermol.BootTablesProofs

/-! # Contiguous mappings

    `map_contiguous` and `unmap_contiguous` are loops with a `?` in the body.
    `Laid` says what a loop of mappings that returned `Ok` did to the leaf
    entries, `Cleared` the same for a loop of `unmap`s: the pages of the loop
    hold what was written, every other page what it held before.  Both compose,
    so a loop that stops with an error has done exactly the part before the
    page it stopped at.

    Nothing is undone on an error.  `map` alone leaves every translation as it
    was when it fails; a loop of it does not. -/

namespace KermolContiguous

open RustEffect X86Paging KermolFrameAllocator KermolPageTable KermolPageTree
open KermolMapStep KermolPageTableRun KermolBootTables RadixTree

/-! ## What a loop of mappings does -/

/-- The word that `map` writes for the frame at address `a`. -/
def entryAt (a : Nat) (flags : PageTableFlags) : PageTableEntry :=
  ⟨BitVec.ofNat 64 a ||| flags.bits⟩

theorem ofAddr_eq_entryAt (p : PhysAddr) (flags : PageTableFlags) :
    PageTableEntry.ofAddr p flags = entryAt p.addr flags := rfl

/-- The leaf entries that a list of mappings asks for, by page. -/
def leavesOf (flags : PageTableFlags) (ms : List (Nat × Nat)) : List (Nat × PageTableEntry) :=
  ms.map fun m => (m.2 / PAGE_SIZE, entryAt m.1 flags)

section Loops

variable {σ : Type} {pt : RecursivePageTable} {root : PhysAddr} {flags : PageTableFlags}
  {s s₁ s' : PagingState σ} {v : VirtAddr}

/-- The entries `ws` were written on the way from `s` to `s'`, each to a page
    that had none. -/
structure Laid (root : PhysAddr) (ws : List (Nat × PageTableEntry)) (s s' : PagingState σ) :
    Prop where
  absent : ∀ v, pageIndex 4 v ≠ RECURSIVE → ∀ w ∈ ws, w.1 = v.page →
    leafEntry root s.mem v = none
  here : ∀ v, pageIndex 4 v ≠ RECURSIVE → ∀ w ∈ ws, w.1 = v.page → w.2.isUnused = false →
    leafEntry root s'.mem v = some w.2
  there : ∀ v, pageIndex 4 v ≠ RECURSIVE → (∀ w ∈ ws, w.1 ≠ v.page) →
    leafEntry root s'.mem v = leafEntry root s.mem v

theorem Laid.nil (root : PhysAddr) (s : PagingState σ) : Laid root [] s s where
  absent := nofun
  here := nofun
  there := fun _ _ _ => rfl

theorem Laid.append {ws₁ ws₂ : List (Nat × PageTableEntry)} (h₁ : Laid root ws₁ s s₁)
    (h₂ : Laid root ws₂ s₁ s') : Laid root (ws₁ ++ ws₂) s s' where
  absent := by
    intro v hv w hw hpage
    rcases List.mem_append.mp hw with hw | hw
    · exact h₁.absent v hv w hw hpage
    · -- the page had no entry in between, so it had none before
      by_cases hin : ∃ u ∈ ws₁, u.1 = v.page
      · obtain ⟨u, hu, hup⟩ := hin
        exact h₁.absent v hv u hu hup
      · rw [← h₁.there v hv fun u hu hup => hin ⟨u, hu, hup⟩]
        exact h₂.absent v hv w hw hpage
  here := by
    intro v hv w hw hpage hused
    rcases List.mem_append.mp hw with hw | hw
    · have hmid := h₁.here v hv w hw hpage hused
      rw [h₂.there v hv, hmid]
      intro u hu hup
      rw [h₂.absent v hv u hu hup] at hmid
      cases hmid
    · exact h₂.here v hv w hw hpage hused
  there := by
    intro v hv hout
    rw [h₂.there v hv fun w hw => hout w (List.mem_append_right _ hw),
      h₁.there v hv fun w hw => hout w (List.mem_append_left _ hw)]

/-- Pages that are not mapped yet. -/
def Unmapped (root : PhysAddr) (mem : PhysMem) (ms : List (Nat × Nat)) : Prop :=
  ∀ v, pageIndex 4 v ≠ RECURSIVE → (∃ m ∈ ms, m.2 / PAGE_SIZE = v.page) →
    leafEntry root mem v = none

theorem Laid.unmapped {ms : List (Nat × Nat)} (h : Laid root (leavesOf flags ms) s s') :
    Unmapped root s.mem ms := by
  rintro v hv ⟨m, hm, hpage⟩
  exact h.absent v hv _ (List.mem_map_of_mem hm) hpage

/-- A leaf entry written over an unmapped page, after tables were linked. -/
theorem laid_leaf (hv : pageIndex 4 v ≠ RECURSIVE) (hwf : TreeWF pt root s₁.mem)
    (hleaves : ∀ u, pageIndex 4 u ≠ RECURSIVE →
      leafEntry root s₁.mem u = leafEntry root s.mem u)
    (hnone : leafEntry root s.mem v = none) {t : Nat}
    (ht : walk child s₁.mem root.addr (tablePath v) = some t) (e : PageTableEntry) :
    Laid root [(v.page, e)] s ⟨setEntry s₁.mem t (pageIndex 1 v) e, s₁.alloc⟩ where
  absent := by
    intro u hu w hw hpage
    rw [List.mem_singleton.mp hw] at hpage
    rw [leafEntry_congr hpage.symm]
    exact hnone
  here := by
    intro u hu w hw hpage hused
    rw [List.mem_singleton.mp hw] at hpage hused ⊢
    rw [leafEntry_leaf_same hwf hv ht _ hpage.symm]
    exact if_neg (by rw [hused]; exact Bool.false_ne_true)
  there := by
    intro u hu hout
    have hne := hout _ (List.mem_singleton.mpr rfl)
    rw [leafEntry_leaf_other hwf hv hu ht _ hne.symm, hleaves u hu]

variable [FrameAllocator σ]

/-- **`map`, AS A LEAF WRITE.** -/
theorem map_laid {from_ : PhysAddr} (hwf : TreeWF pt root s.mem)
    (hfresh : Fresh 3 (tables root s.mem) s.alloc)
    (h : pt.map from_ v flags s = .ok (.ok (), s')) :
    Laid root [(v.page, entryAt from_.addr flags)] s s' ∧ Kept pt root 3 s s'
      ∧ pageIndex 4 v ≠ RECURSIVE ∧ from_.addr % PAGE_SIZE = 0 := by
  by_cases hv : pageIndex 4 v = RECURSIVE
  · rw [map_reserved hv] at h
    cases h
  have hop : (Op.map from_ v flags).Outside := hv
  have hkept := step_kept hop hwf hfresh h
  cases map_cases hv hwf hfresh h with
  | @mapped n t s₁ _ hlinks hnone hal ht =>
      have hpres := links_preserved hv hlinks hwf
      exact ⟨laid_leaf hv hpres.wf hpres.leaf hnone ht _, hkept, hv, hal⟩

/-- **A FAILED `map`** leaves every leaf entry as it was, and says why it
    failed. -/
theorem map_refused {from_ : PhysAddr} {e : PagingError} (hwf : TreeWF pt root s.mem)
    (hfresh : Fresh 3 (tables root s.mem) s.alloc)
    (h : pt.map from_ v flags s = .ok (.error e, s')) :
    Kept pt root 3 s s'
      ∧ (∀ u, pageIndex 4 u ≠ RECURSIVE → leafEntry root s'.mem u = leafEntry root s.mem u)
      ∧ ((e = .attemptedMappingToReserved v ∧ pageIndex 4 v = RECURSIVE ∧ s' = s)
        ∨ (e = .alreadyMapped v ∧ pageIndex 4 v ≠ RECURSIVE
          ∧ leafEntry root s.mem v ≠ none ∧ s' = s)
        ∨ (e = .tableAllocationFailed ∧ pageIndex 4 v ≠ RECURSIVE
          ∧ leafEntry root s.mem v = none)) := by
  by_cases hv : pageIndex 4 v = RECURSIVE
  · rw [map_reserved hv] at h
    cases h
    exact ⟨kept_mono (kept_refl hwf) (by omega), fun _ _ => rfl, Or.inl ⟨rfl, hv, rfl⟩⟩
  have hop : (Op.map from_ v flags).Outside := hv
  refine ⟨step_kept hop hwf hfresh h, ?_⟩
  cases map_cases hv hwf hfresh h with
  | alreadyMapped hleaf =>
      refine ⟨fun _ _ => rfl, Or.inr (Or.inl ⟨rfl, hv, ?_, rfl⟩)⟩
      rw [hleaf]
      exact nofun
  | allocFailed _ hlinks hnone _ =>
      exact ⟨(links_preserved hv hlinks hwf).leaf, Or.inr (Or.inr ⟨rfl, hv, hnone⟩)⟩

/-- **`map` ACCEPTS** a page that is not mapped, if the allocator does not
    fail. -/
theorem map_accepts {from_ : PhysAddr} (flags : PageTableFlags)
    (hv : pageIndex 4 v ≠ RECURSIVE) (hwf : TreeWF pt root s.mem)
    (hfresh : Fresh 3 (tables root s.mem) s.alloc)
    (hlive : Live pt.internalOffset 3 s.alloc) (hnf : NeverFails 3 s.alloc)
    (hal : from_.addr % PAGE_SIZE = 0) (hnone : leafEntry root s.mem v = none) :
    ∃ s', pt.map from_ v flags s = .ok (.ok (), s') := by
  obtain ⟨r, s', hmap, hne⟩ : ∃ r s', pt.map from_ v flags s = .ok (r, s')
      ∧ (NeverFails 3 s.alloc → r ≠ .error .tableAllocationFailed) :=
    map_total hv hwf hfresh hlive hal
  cases r with
  | ok u => exact ⟨s', hmap⟩
  | error e =>
      obtain ⟨-, -, hwhy⟩ := map_refused hwf hfresh hmap
      rcases hwhy with ⟨-, hin, -⟩ | ⟨-, -, hmapped, -⟩ | ⟨rfl, -, -⟩
      · exact absurd hin hv
      · exact absurd hnone hmapped
      · exact absurd rfl (hne hnf)

theorem mapPage_eq_ok {m : Nat × Nat} {r : Except PagingError Unit} :
    mapPage pt flags m s = .ok (r, s')
      ↔ ∃ (p : PhysAddr) (v : VirtAddr), p.addr = m.1 ∧ v.addr = m.2
        ∧ pt.map p v flags s = .ok (r, s') := by
  rw [mapPage]
  simp only [bind_eq_ok, PhysAddr.new_eq_ok, VirtAddr.new_eq_ok, exists_and_left]

theorem mapPage_laid {m : Nat × Nat} (hwf : TreeWF pt root s.mem)
    (hfresh : Fresh 3 (tables root s.mem) s.alloc)
    (h : mapPage pt flags m s = .ok (.ok (), s')) :
    Laid root (leavesOf flags [m]) s s' ∧ Kept pt root 3 s s' ∧ Mappable m := by
  obtain ⟨p, v, hp, hv, hmap⟩ := mapPage_eq_ok.mp h
  obtain ⟨hlaid, hkept, hout, hal⟩ := map_laid hwf hfresh hmap
  rw [VirtAddr.page, hv, hp] at hlaid
  exact ⟨hlaid, hkept, ⟨hp ▸ p.valid, hp ▸ hal, v, hv, hout⟩⟩

/-- **A LOOP OF MAPPINGS THAT RETURNED `Ok`.** -/
theorem mapPages_laid {ms : List (Nat × Nat)} :
    ∀ {s : PagingState σ}, TreeWF pt root s.mem →
      Fresh (3 * ms.length) (tables root s.mem) s.alloc →
      forEach (mapPage pt flags) ms s = .ok (.ok (), s') →
      Laid root (leavesOf flags ms) s s' ∧ Kept pt root (3 * ms.length) s s'
        ∧ ∀ m ∈ ms, Mappable m := by
  induction ms with
  | nil =>
      intro s hwf _ h
      cases h
      exact ⟨Laid.nil root _, kept_refl hwf, nofun⟩
  | cons m ms ih =>
      intro s hwf hfresh h
      rw [List.length_cons] at hfresh ⊢
      rw [forEach_cons] at h
      obtain ⟨_, s₁, h₁, h₂⟩ := andThen_eq_ok h
      obtain ⟨hlaid₁, hkept₁, hm⟩ := mapPage_laid hwf (fresh_mono hfresh (by omega)) h₁
      obtain ⟨hlaid₂, hkept₂, hms⟩ := ih hkept₁.wf
        (hkept₁.fresh _ (fresh_mono hfresh (by omega))) h₂
      refine ⟨hlaid₁.append hlaid₂, kept_mono (kept_trans hkept₁ hkept₂) (by omega), ?_⟩
      intro m' hm'
      rcases List.mem_cons.mp hm' with rfl | hm'
      · exact hm
      · exact hms m' hm'

/-- **A LOOP OF MAPPINGS RETURNS.**  It never panics, and with an allocator that
    does not fail it returns `Ok` if its pages are distinct and none of them is
    mapped. -/
theorem mapPages_returns (flags : PageTableFlags) {ms : List (Nat × Nat)} :
    ∀ {s : PagingState σ}, (∀ m ∈ ms, Mappable m) → TreeWF pt root s.mem →
      Fresh (3 * ms.length) (tables root s.mem) s.alloc →
      Live pt.internalOffset (3 * ms.length) s.alloc →
      ∃ r s', forEach (mapPage pt flags) ms s = .ok (r, s')
        ∧ (NeverFails (3 * ms.length) s.alloc → (ms.map fun m => m.2 / PAGE_SIZE).Nodup →
          Unmapped root s.mem ms → r = .ok ()) := by
  induction ms with
  | nil => intro s _ _ _ _; exact ⟨.ok (), s, rfl, fun _ _ _ => rfl⟩
  | cons m ms ih =>
      intro s hms hwf hfresh hlive
      rw [List.length_cons] at hfresh hlive ⊢
      obtain ⟨hphys, hal, v, hv, hout⟩ := hms m List.mem_cons_self
      have hfresh₃ := fresh_mono hfresh (j := 3) (by omega)
      have hlive₃ := live_mono hlive (j := 3) (by omega)
      obtain ⟨r, s₁, hmap, -⟩ : ∃ r s₁, pt.map ⟨m.1, hphys⟩ v flags s = .ok (r, s₁)
          ∧ (NeverFails 3 s.alloc → r ≠ .error .tableAllocationFailed) :=
        map_total hout hwf hfresh₃ hlive₃ hal
      have hpage : mapPage pt flags m s = .ok (r, s₁) :=
        mapPage_eq_ok.mpr ⟨_, v, rfl, hv, hmap⟩
      rw [forEach_cons, hpage]
      cases r with
      | error e =>
          refine ⟨.error e, s₁, rfl, ?_⟩
          intro hnf _ hun
          have hfree : leafEntry root s.mem v = none :=
            hun v hout ⟨m, List.mem_cons_self, by rw [VirtAddr.page, hv]; rfl⟩
          obtain ⟨s₂, hmap₂⟩ : ∃ s₂, pt.map ⟨m.1, hphys⟩ v flags s = .ok (.ok (), s₂) :=
            map_accepts flags hout hwf hfresh₃ hlive₃ (neverFails_mono hnf (by omega)) hal hfree
          cases hmap.symm.trans hmap₂
      | ok u =>
          obtain ⟨hlaid, hkept, -⟩ := mapPage_laid hwf hfresh₃ hpage
          obtain ⟨r', s', hrest, hok⟩ := ih (fun m' hm' => hms m' (List.mem_cons_of_mem m hm'))
            hkept.wf (hkept.fresh _ (fresh_mono hfresh (by omega)))
            (hkept.live _ (live_mono hlive (by omega)))
          refine ⟨r', s', hrest, ?_⟩
          intro hnf hnodup hun
          rw [List.map_cons, List.nodup_cons] at hnodup
          refine hok (hkept.neverFails _ (neverFails_mono hnf (by omega))) hnodup.2 ?_
          -- the pages still to come differ from the one just mapped
          rintro w hw ⟨m', hm', hm'w⟩
          rw [hlaid.there w hw]
          · exact hun w hw ⟨m', List.mem_cons_of_mem m hm', hm'w⟩
          · intro u hu huw
            rw [List.mem_singleton.mp hu] at huw
            exact hnodup.1 (List.mem_map.mpr ⟨m', hm', hm'w.trans huw.symm⟩)

end Loops

/-! ## What a loop of `unmap`s does -/

section Unmapping

variable {σ : Type} {pt : RecursivePageTable} {root : PhysAddr} {s s₁ s' : PagingState σ}

/-- Unmap the page at address `a`. -/
def unmapPage (pt : RecursivePageTable) (a : Nat) (s : PagingState σ) :
    Fallible PagingError (PagingState σ) Unit :=
  show Panics _ from do
    let v ← VirtAddr.new a
    pt.unmap v s

/-- `unmap_contiguous` is a loop over neighbouring pages. -/
theorem unmapContiguous_eq (pages : Nat) (address : VirtAddr) (s : PagingState σ) :
    pt.unmapContiguous pages address s
      = if pages * PAGE_SIZE < 2 ^ 64 then
          forEach (unmapPage pt)
            ((List.range pages).map fun i => address.addr + i * PAGE_SIZE) s
        else .error .overflow := by
  rw [RecursivePageTable.unmapContiguous, forEach_map]
  rfl

theorem unmapPage_eq_ok {a : Nat} {r : Except PagingError Unit} :
    unmapPage pt a s = .ok (r, s') ↔ ∃ v : VirtAddr, v.addr = a ∧ pt.unmap v s = .ok (r, s') := by
  rw [unmapPage]
  simp only [bind_eq_ok, VirtAddr.new_eq_ok]

/-- The pages of the addresses `as` lost their entries on the way from `s` to
    `s'`. -/
structure Cleared (root : PhysAddr) (as : List Nat) (s s' : PagingState σ) : Prop where
  present : ∀ v, pageIndex 4 v ≠ RECURSIVE → ∀ a ∈ as, a / PAGE_SIZE = v.page →
    leafEntry root s.mem v ≠ none
  here : ∀ v, pageIndex 4 v ≠ RECURSIVE → ∀ a ∈ as, a / PAGE_SIZE = v.page →
    leafEntry root s'.mem v = none
  there : ∀ v, pageIndex 4 v ≠ RECURSIVE → (∀ a ∈ as, a / PAGE_SIZE ≠ v.page) →
    leafEntry root s'.mem v = leafEntry root s.mem v

theorem Cleared.nil (root : PhysAddr) (s : PagingState σ) : Cleared root [] s s where
  present := nofun
  here := nofun
  there := fun _ _ _ => rfl

theorem Cleared.append {as₁ as₂ : List Nat} (h₁ : Cleared root as₁ s s₁)
    (h₂ : Cleared root as₂ s₁ s') : Cleared root (as₁ ++ as₂) s s' where
  present := by
    intro v hv a ha hpage
    rcases List.mem_append.mp ha with ha | ha
    · exact h₁.present v hv a ha hpage
    · have hmid := h₂.present v hv a ha hpage
      rwa [h₁.there v hv fun b hb hbv => hmid (h₁.here v hv b hb hbv)] at hmid
  here := by
    intro v hv a ha hpage
    by_cases hin : ∃ b ∈ as₂, b / PAGE_SIZE = v.page
    · obtain ⟨b, hb, hbv⟩ := hin
      exact h₂.here v hv b hb hbv
    · rw [h₂.there v hv fun b hb hbv => hin ⟨b, hb, hbv⟩]
      rcases List.mem_append.mp ha with ha | ha
      · exact h₁.here v hv a ha hpage
      · exact absurd ⟨a, ha, hpage⟩ hin
  there := by
    intro v hv hout
    rw [h₂.there v hv fun a ha => hout a (List.mem_append_right _ ha),
      h₁.there v hv fun a ha => hout a (List.mem_append_left _ ha)]

/-- Addresses outside the recursive slot. -/
def AllOutside (as : List Nat) : Prop :=
  ∀ a ∈ as, ∀ v : VirtAddr, v.addr = a → pageIndex 4 v ≠ RECURSIVE

theorem unmapPage_cleared {a : Nat} (hout : AllOutside [a]) (hwf : TreeWF pt root s.mem)
    (h : unmapPage pt a s = .ok (.ok (), s')) :
    Cleared root [a] s s' ∧ TreeWF pt root s'.mem := by
  obtain ⟨v, rfl, hunmap⟩ := unmapPage_eq_ok.mp h
  have hv := hout _ (List.mem_singleton.mpr rfl) v rfl
  rcases unmap_cases hv hwf with ⟨-, heq⟩ | ⟨t, ht, hleaf, heq⟩
  · cases heq.symm.trans hunmap
  cases heq.symm.trans hunmap
  refine ⟨⟨?_, ?_, ?_⟩, treeWF_leaf hwf hv ht _⟩
  · intro u hu a ha hpage
    rw [List.mem_singleton.mp ha] at hpage
    rw [leafEntry_congr hpage.symm, hleaf]
    exact nofun
  · intro u hu a ha hpage
    rw [List.mem_singleton.mp ha] at hpage
    rw [leafEntry_leaf_same hwf hv ht _ hpage.symm]
    rfl
  · intro u hu hne
    exact leafEntry_leaf_other hwf hv hu ht _ (hne _ (List.mem_singleton.mpr rfl)).symm

/-- **A LOOP OF `unmap`S THAT RETURNED `Ok`.** -/
theorem unmapPages_cleared {as : List Nat} :
    ∀ {s : PagingState σ}, AllOutside as → TreeWF pt root s.mem →
      forEach (unmapPage pt) as s = .ok (.ok (), s') →
      Cleared root as s s' ∧ TreeWF pt root s'.mem := by
  induction as with
  | nil =>
      intro s _ hwf h
      cases h
      exact ⟨Cleared.nil root _, hwf⟩
  | cons a as ih =>
      intro s hout hwf h
      rw [forEach_cons] at h
      obtain ⟨_, s₁, h₁, h₂⟩ := andThen_eq_ok h
      obtain ⟨hc₁, hwf₁⟩ := unmapPage_cleared
        (fun b hb => hout b (List.mem_singleton.mp hb ▸ List.mem_cons_self)) hwf h₁
      obtain ⟨hc₂, hwf₂⟩ := ih (fun b hb => hout b (List.mem_cons_of_mem a hb)) hwf₁ h₂
      exact ⟨hc₁.append hc₂, hwf₂⟩

/-- **A LOOP OF `unmap`S RETURNS `Ok`** when its pages are distinct and all of
    them are mapped. -/
theorem unmapPages_total {as : List Nat} :
    ∀ {s : PagingState σ}, (∀ a ∈ as, ∃ v : VirtAddr, v.addr = a ∧ pageIndex 4 v ≠ RECURSIVE
        ∧ leafEntry root s.mem v ≠ none) →
      (as.map fun a => a / PAGE_SIZE).Nodup → TreeWF pt root s.mem →
      ∃ s', forEach (unmapPage pt) as s = .ok (.ok (), s') := by
  induction as with
  | nil => intro s _ _ _; exact ⟨s, rfl⟩
  | cons a as ih =>
      intro s hmapped hnodup hwf
      rw [List.map_cons, List.nodup_cons] at hnodup
      obtain ⟨v, rfl, hv, hleaf⟩ := hmapped a List.mem_cons_self
      rcases unmap_cases hv hwf with ⟨hnone, -⟩ | ⟨t, ht, -, heq⟩
      · exact absurd hnone hleaf
      have h₁ := unmapPage_eq_ok.mpr ⟨v, rfl, heq⟩
      have hrest : ∀ b ∈ as, ∃ u : VirtAddr, u.addr = b ∧ pageIndex 4 u ≠ RECURSIVE
          ∧ leafEntry root (setEntry s.mem t (pageIndex 1 v) .new) u ≠ none := by
        intro b hb
        obtain ⟨u, rfl, hu, huleaf⟩ := hmapped b (List.mem_cons_of_mem _ hb)
        have hpage : u.page ≠ v.page := fun hpage =>
          hnodup.1 (List.mem_map.mpr ⟨u.addr, hb, hpage⟩)
        exact ⟨u, rfl, hu, by rwa [leafEntry_leaf_other hwf hv hu ht _ hpage]⟩
      obtain ⟨s', h₂⟩ := ih (s := ⟨setEntry s.mem t (pageIndex 1 v) .new, s.alloc⟩) hrest
        hnodup.2 (treeWF_leaf hwf hv ht _)
      exact ⟨s', by rw [forEach_cons, h₁, andThen_ok, h₂]⟩

end Unmapping

/-! ## Leaf entries and `translate` -/

section Translate

variable {pt : RecursivePageTable} {root : PhysAddr} {mem mem' : PhysMem} {v : VirtAddr}

/-- Pages with the same leaf entry translate alike. -/
theorem translate_congr (hv : pageIndex 4 v ≠ RECURSIVE) (hwf : TreeWF pt root mem)
    (hwf' : TreeWF pt root mem') (h : leafEntry root mem' v = leafEntry root mem v) :
    pt.translate mem' v = pt.translate mem v := by
  rw [translate_eq hv hwf, translate_eq hv hwf', h]

theorem translate_eq_none (hv : pageIndex 4 v ≠ RECURSIVE) (hwf : TreeWF pt root mem) :
    pt.translate mem v = .ok none ↔ leafEntry root mem v = none := by
  rw [translate_eq hv hwf]
  constructor
  · intro h
    exact Option.map_eq_none_iff.mp (Except.ok.inj h)
  · intro h
    rw [h]
    rfl

/-- A page with the entry of an aligned frame translates into that frame. -/
theorem translate_entryAt {a : Nat} {flags : PageTableFlags} (hv : pageIndex 4 v ≠ RECURSIVE)
    (hwf : TreeWF pt root mem) (hphys : a < 2 ^ 52) (hal : a % PAGE_SIZE = 0)
    (h : leafEntry root mem v = some (entryAt a flags)) :
    ∃ q : PhysAddr, q.addr = a + v.addr % PAGE_SIZE ∧ pt.translate mem v = .ok (some q) := by
  have haddr : (entryAt a flags).addr = ⟨a, hphys⟩ :=
    PageTableEntry.addr_ofAddr (a := ⟨a, hphys⟩) flags hal
  refine ⟨physAt (entryAt a flags) v, ?_, ?_⟩
  · show (entryAt a flags).addr.addr + _ = _
    rw [haddr]
  · rw [translate_eq hv hwf, h]
    rfl

end Translate

/-! ## Neighbouring pages -/

section Neighbours

/-- A list over `0..n` cut at an element. -/
theorem range_map_split {α : Type} {f : Nat → α} {n : Nat} {done rest : List α} {x : α}
    (h : (List.range n).map f = done ++ x :: rest) :
    done.length < n ∧ done = (List.range done.length).map f ∧ x = f done.length := by
  have hlen := congrArg List.length h
  simp only [List.length_map, List.length_range, List.length_append, List.length_cons] at hlen
  have hlt : done.length < n := by omega
  refine ⟨hlt, ?_, ?_⟩
  · have htake := congrArg (List.take done.length) h
    rw [List.take_left, ← List.map_take, List.take_range, Nat.min_eq_left hlt.le] at htake
    exact htake.symm
  · have hget := congrArg (fun l => l[done.length]?) h
    simpa [hlt] using hget.symm

theorem page_add (a i : Nat) : (a + i * PAGE_SIZE) / PAGE_SIZE = a / PAGE_SIZE + i :=
  Nat.add_mul_div_right a i (by decide)

theorem mem_leavesOf {flags : PageTableFlags} {phys virt n : Nat} {w : Nat × PageTableEntry} :
    w ∈ leavesOf flags (pagesFrom phys virt n)
      ↔ ∃ i < n, w = (virt / PAGE_SIZE + i, entryAt (phys + i * PAGE_SIZE) flags) := by
  simp [leavesOf, pagesFrom, page_add, eq_comm]

theorem nodup_pages (a n : Nat) :
    (((List.range n).map fun i => a + i * PAGE_SIZE).map fun a => a / PAGE_SIZE).Nodup := by
  rw [List.map_map]
  refine List.Nodup.map ?_ List.nodup_range
  intro i j h
  simpa [page_add] using h

theorem nodup_pagesFrom (phys virt n : Nat) :
    ((pagesFrom phys virt n).map fun m => m.2 / PAGE_SIZE).Nodup := by
  have h := nodup_pages virt n
  rw [List.map_map] at h
  rwa [pagesFrom, List.map_map]

variable {σ : Type} {pt : RecursivePageTable} {root : PhysAddr} {flags : PageTableFlags}
  {s s' : PagingState σ} {p : PhysAddr} {a v : VirtAddr} {n : Nat}

/-- The pages of an aligned range hold the bytes of the range. -/
theorem page_in_range (hal : a.addr % PAGE_SIZE = 0) :
    (∃ i < n, v.page = a.page + i) ↔ a.addr ≤ v.addr ∧ v.addr < a.addr + n * PAGE_SIZE := by
  simp only [VirtAddr.page, PAGE_SIZE] at *
  constructor
  · rintro ⟨i, hi, h⟩
    omega
  · intro h
    exact ⟨v.addr / 4096 - a.addr / 4096, by omega, by omega⟩

/-- Every byte of the range has a canonical address outside the recursive
    slot. -/
def RangeOutside (a : VirtAddr) (n : Nat) : Prop :=
  ∀ i < n * PAGE_SIZE, ∃ v : VirtAddr, v.addr = a.addr + i ∧ pageIndex 4 v ≠ RECURSIVE

theorem RangeOutside.outside (h : RangeOutside a n) (hlo : a.addr ≤ v.addr)
    (hhi : v.addr < a.addr + n * PAGE_SIZE) : pageIndex 4 v ≠ RECURSIVE := by
  obtain ⟨u, hu, hout⟩ := h (v.addr - a.addr) (by omega)
  rwa [VirtAddr.ext (show u.addr = v.addr by omega)] at hout

theorem RangeOutside.page (h : RangeOutside a n) {i : Nat} (hi : i < n) :
    ∃ v : VirtAddr, v.addr = a.addr + i * PAGE_SIZE ∧ pageIndex 4 v ≠ RECURSIVE :=
  h (i * PAGE_SIZE) (Nat.mul_lt_mul_of_pos_right hi (by decide))

theorem mappable_pagesFrom (hvirt : RangeOutside a n) (hp : p.addr % PAGE_SIZE = 0)
    (hphys : p.addr + n * PAGE_SIZE ≤ 2 ^ 52) :
    ∀ m ∈ pagesFrom p.addr a.addr n, Mappable m := by
  intro m hm
  obtain ⟨i, hi, rfl⟩ := mem_pagesFrom.mp hm
  have hlt : i * PAGE_SIZE < n * PAGE_SIZE := Nat.mul_lt_mul_of_pos_right hi (by decide)
  refine ⟨by dsimp only; omega, ?_, hvirt.page hi⟩
  dsimp only
  rw [Nat.add_mul_mod_self_right]
  exact hp

/-- What `translate` answers after neighbouring pages were mapped. -/
structure MappedRange (pt : RecursivePageTable) (flags : PageTableFlags) (p : PhysAddr)
    (a : VirtAddr) (n : Nat) (mem mem' : PhysMem) : Prop where
  before : ∀ v, pageIndex 4 v ≠ RECURSIVE → ∀ i < n, v.page = a.page + i →
    pt.translate mem v = .ok none
  after : flags.contains .PRESENT = true → ∀ v, pageIndex 4 v ≠ RECURSIVE →
    ∀ i < n, v.page = a.page + i →
    ∃ q : PhysAddr, q.addr = p.addr + i * PAGE_SIZE + v.addr % PAGE_SIZE
      ∧ pt.translate mem' v = .ok (some q)
  elsewhere : ∀ v, pageIndex 4 v ≠ RECURSIVE → (∀ i < n, v.page ≠ a.page + i) →
    pt.translate mem' v = pt.translate mem v

theorem Laid.mappedRange (h : Laid root (leavesOf flags (pagesFrom p.addr a.addr n)) s s')
    (hwf : TreeWF pt root s.mem) (hwf' : TreeWF pt root s'.mem)
    (hms : ∀ m ∈ pagesFrom p.addr a.addr n, Mappable m) :
    MappedRange pt flags p a n s.mem s'.mem where
  before := by
    intro v hv i hi hpage
    rw [translate_eq_none hv hwf]
    exact h.absent v hv _ (mem_leavesOf.mpr ⟨i, hi, rfl⟩) hpage.symm
  after := by
    intro hpres v hv i hi hpage
    have hm := hms _ (mem_pagesFrom.mpr ⟨i, hi, rfl⟩)
    exact translate_entryAt hv hwf' hm.phys hm.aligned
      (h.here v hv _ (mem_leavesOf.mpr ⟨i, hi, rfl⟩) hpage.symm
        (PageTableEntry.isUnused_ofAddr (a := ⟨_, hm.phys⟩) hpres))
  elsewhere := by
    intro v hv hout
    refine translate_congr hv hwf hwf' (h.there v hv ?_)
    rintro w hw hpage
    obtain ⟨i, hi, rfl⟩ := mem_leavesOf.mp hw
    exact hout i hi hpage.symm

/-! Byte by byte, for a range that starts on a page. -/

section Bytes

variable {mem mem' : PhysMem} {i : Nat}

/-- A byte of the range lies in one of its pages. -/
theorem RangeOutside.byte (hvirt : RangeOutside a n) (hal : a.addr % PAGE_SIZE = 0)
    (hi : i < n * PAGE_SIZE) (hv : v.addr = a.addr + i) :
    pageIndex 4 v ≠ RECURSIVE ∧ ∃ j < n, v.page = a.page + j := by
  have hin : a.addr ≤ v.addr ∧ v.addr < a.addr + n * PAGE_SIZE := by omega
  exact ⟨hvirt.outside hin.1 hin.2, (page_in_range hal).mpr hin⟩

theorem MappedRange.before_at (h : MappedRange pt flags p a n mem mem')
    (hvirt : RangeOutside a n) (hal : a.addr % PAGE_SIZE = 0) (hi : i < n * PAGE_SIZE)
    (hv : v.addr = a.addr + i) : pt.translate mem v = .ok none := by
  obtain ⟨hout, j, hj, hpage⟩ := hvirt.byte hal hi hv
  exact h.before v hout j hj hpage

theorem MappedRange.after_at (h : MappedRange pt flags p a n mem mem')
    (hpres : flags.contains .PRESENT = true) (hvirt : RangeOutside a n)
    (hal : a.addr % PAGE_SIZE = 0) (hi : i < n * PAGE_SIZE) (hv : v.addr = a.addr + i) :
    ∃ q : PhysAddr, q.addr = p.addr + i ∧ pt.translate mem' v = .ok (some q) := by
  obtain ⟨hout, j, hj, hpage⟩ := hvirt.byte hal hi hv
  obtain ⟨q, hq, htr⟩ := h.after hpres v hout j hj hpage
  refine ⟨q, ?_, htr⟩
  simp only [VirtAddr.page, PAGE_SIZE] at *
  omega

theorem MappedRange.elsewhere_at (h : MappedRange pt flags p a n mem mem')
    (hal : a.addr % PAGE_SIZE = 0) (hv : pageIndex 4 v ≠ RECURSIVE)
    (hout : ¬ (a.addr ≤ v.addr ∧ v.addr < a.addr + n * PAGE_SIZE)) :
    pt.translate mem' v = pt.translate mem v :=
  h.elsewhere v hv fun j hj hpage => hout ((page_in_range hal).mp ⟨j, hj, hpage⟩)

end Bytes

/-- What `translate` answers after neighbouring pages were unmapped. -/
structure UnmappedRange (pt : RecursivePageTable) (a : VirtAddr) (n : Nat)
    (mem mem' : PhysMem) : Prop where
  before : ∀ v, pageIndex 4 v ≠ RECURSIVE → ∀ i < n, v.page = a.page + i →
    pt.translate mem v ≠ .ok none
  after : ∀ v, pageIndex 4 v ≠ RECURSIVE → ∀ i < n, v.page = a.page + i →
    pt.translate mem' v = .ok none
  elsewhere : ∀ v, pageIndex 4 v ≠ RECURSIVE → (∀ i < n, v.page ≠ a.page + i) →
    pt.translate mem' v = pt.translate mem v

theorem Cleared.unmappedRange
    (h : Cleared root ((List.range n).map fun i => a.addr + i * PAGE_SIZE) s s')
    (hwf : TreeWF pt root s.mem) (hwf' : TreeWF pt root s'.mem) :
    UnmappedRange pt a n s.mem s'.mem where
  before := by
    intro v hv i hi hpage
    rw [Ne, translate_eq_none hv hwf]
    refine h.present v hv _ (List.mem_map.mpr ⟨i, List.mem_range.mpr hi, rfl⟩) ?_
    rw [page_add]
    exact hpage.symm
  after := by
    intro v hv i hi hpage
    rw [translate_eq_none hv hwf']
    refine h.here v hv _ (List.mem_map.mpr ⟨i, List.mem_range.mpr hi, rfl⟩) ?_
    rw [page_add]
    exact hpage.symm
  elsewhere := by
    intro v hv hout
    refine translate_congr hv hwf hwf' (h.there v hv ?_)
    rintro b hb hpage
    obtain ⟨i, hi, rfl⟩ := List.mem_map.mp hb
    rw [page_add] at hpage
    exact hout i (List.mem_range.mp hi) hpage.symm

theorem RangeOutside.allOutside (h : RangeOutside a n) :
    AllOutside ((List.range n).map fun i => a.addr + i * PAGE_SIZE) := by
  intro b hb v hv
  obtain ⟨i, hi, rfl⟩ := List.mem_map.mp hb
  obtain ⟨u, hu, hout⟩ := h.page (List.mem_range.mp hi)
  rwa [VirtAddr.ext (hu.trans hv.symm)] at hout

/-- **UNDO.**  Unmapping a range that was just mapped restores every
    translation. -/
theorem unmapContiguous_undoes {s₁ s₂ : PagingState σ} (hwf : TreeWF pt root s₂.mem)
    (hrange : MappedRange pt flags p a n s₁.mem s₂.mem)
    (hpres : flags.contains .PRESENT = true) (hvirt : RangeOutside a n)
    (hsize : n * PAGE_SIZE < 2 ^ 64) :
    ∃ s₃, pt.unmapContiguous n a s₂ = .ok (.ok (), s₃)
      ∧ ∀ v, pageIndex 4 v ≠ RECURSIVE → pt.translate s₃.mem v = pt.translate s₁.mem v := by
  have hmapped : ∀ b ∈ (List.range n).map fun i => a.addr + i * PAGE_SIZE,
      ∃ v : VirtAddr, v.addr = b ∧ pageIndex 4 v ≠ RECURSIVE
        ∧ leafEntry root s₂.mem v ≠ none := by
    intro b hb
    obtain ⟨i, hi, rfl⟩ := List.mem_map.mp hb
    rw [List.mem_range] at hi
    obtain ⟨v, hva, hv⟩ := hvirt.page hi
    refine ⟨v, hva, hv, ?_⟩
    have hpage : v.page = a.page + i := by rw [VirtAddr.page, hva]; exact page_add _ _
    obtain ⟨q, -, htr⟩ := hrange.after hpres v hv i hi hpage
    rw [Ne, ← translate_eq_none hv hwf, htr]
    intro hnone
    cases hnone
  rw [unmapContiguous_eq, if_pos hsize]
  obtain ⟨s₃, hunmap⟩ := unmapPages_total hmapped (nodup_pages a.addr n) hwf
  obtain ⟨hcleared, hwf₃⟩ := unmapPages_cleared hvirt.allOutside hwf hunmap
  have hback := hcleared.unmappedRange hwf hwf₃
  refine ⟨s₃, hunmap, fun v hv => ?_⟩
  by_cases hin : ∃ i < n, v.page = a.page + i
  · obtain ⟨i, hi, hpage⟩ := hin
    rw [hback.after v hv i hi hpage, hrange.before v hv i hi hpage]
  · have hout : ∀ i < n, v.page ≠ a.page + i := fun i hi h => hin ⟨i, hi, h⟩
    rw [hback.elsewhere v hv hout, hrange.elsewhere v hv hout]

/-- A page of the loop other than those already done. -/
theorem page_not_before {w : VirtAddr} {k : Nat} (hw : w.addr = a.addr + k * PAGE_SIZE) :
    ∀ i < k, w.page ≠ a.page + i := by
  intro i hi hpage
  have hk : w.page = a.page + k := by
    rw [VirtAddr.page, hw]
    exact page_add _ _
  omega

/-- **A LOOP OF `unmap`S THAT FAILED.** -/
theorem unmapContiguous_stops {e : PagingError} (hwf : TreeWF pt root s.mem)
    (hout : AllOutside ((List.range n).map fun i => a.addr + i * PAGE_SIZE))
    (h : pt.unmapContiguous n a s = .ok (.error e, s')) :
    ∃ k < n, ∃ w : VirtAddr, w.addr = a.addr + k * PAGE_SIZE
      ∧ e = .notMapped w ∧ pt.translate s.mem w = .ok none
      ∧ UnmappedRange pt a k s.mem s'.mem := by
  rw [unmapContiguous_eq] at h
  split at h
  · obtain ⟨done, x, rest, s₂, hsplit, hdone, hx⟩ := forEach_error h
    obtain ⟨hlt, hpre, hxk⟩ := range_map_split hsplit
    rw [hsplit] at hout
    obtain ⟨hcleared, hwf₂⟩ := unmapPages_cleared
      (fun b hb => hout b (List.mem_append_left _ hb)) hwf hdone
    obtain ⟨w, hwx, hunmap⟩ := unmapPage_eq_ok.mp hx
    have hw := hout x (List.mem_append_right _ List.mem_cons_self) w hwx
    rw [hpre] at hcleared
    have hrange := hcleared.unmappedRange hwf hwf₂
    have hwk := hwx.trans hxk
    rcases unmap_cases hw hwf₂ with ⟨hnone, heq⟩ | ⟨t, -, -, heq⟩
    · cases heq.symm.trans hunmap
      refine ⟨done.length, hlt, w, hwk, rfl, ?_, hrange⟩
      rw [← hrange.elsewhere w hw (page_not_before hwk), translate_eq_none hw hwf₂]
      exact hnone
    · cases heq.symm.trans hunmap
  · cases h

/-- **A LOOP OF MAPPINGS THAT FAILED.** -/
theorem mapContiguous_stops [FrameAllocator σ] {e : PagingError} (hwf : TreeWF pt root s.mem)
    (hfresh : Fresh (3 * n) (tables root s.mem) s.alloc)
    (h : pt.mapContiguous n p a flags s = .ok (.error e, s')) :
    ∃ k < n, ∃ w : VirtAddr, w.addr = a.addr + k * PAGE_SIZE
      ∧ ((e = .attemptedMappingToReserved w ∧ pageIndex 4 w = RECURSIVE)
        ∨ (e = .alreadyMapped w ∧ pageIndex 4 w ≠ RECURSIVE
          ∧ pt.translate s.mem w ≠ .ok none)
        ∨ (e = .tableAllocationFailed ∧ pageIndex 4 w ≠ RECURSIVE
          ∧ pt.translate s.mem w = .ok none))
      ∧ MappedRange pt flags p a k s.mem s'.mem := by
  rw [mapContiguous_eq] at h
  split at h
  · obtain ⟨done, x, rest, s₂, hsplit, hdone, hx⟩ := forEach_error h
    obtain ⟨hlt, hpre, hxk⟩ := range_map_split hsplit
    obtain ⟨hlaid, hkept, hms⟩ := mapPages_laid hwf (fresh_mono hfresh (by omega)) hdone
    obtain ⟨p', w, -, hwx, hmap⟩ := mapPage_eq_ok.mp hx
    obtain ⟨hkept', hleaf, hwhy⟩ := map_refused hkept.wf
      (hkept.fresh 3 (fresh_mono hfresh (by omega))) hmap
    have hpages : done = pagesFrom p.addr a.addr done.length := hpre
    rw [hpages] at hlaid hms
    have hrange := hlaid.mappedRange hwf hkept.wf hms
    have hwk : w.addr = a.addr + done.length * PAGE_SIZE := by rw [hwx, hxk]
    have hsame := fun v hv => translate_congr hv hkept.wf hkept'.wf (hleaf v hv)
    refine ⟨done.length, hlt, w, hwk, ?_, ?_⟩
    · -- the page the loop stopped at is as it was before the loop
      have hbefore : ∀ hw : pageIndex 4 w ≠ RECURSIVE, pt.translate s.mem w = .ok none
          ↔ leafEntry root s₂.mem w = none := by
        intro hw
        rw [← hrange.elsewhere w hw (page_not_before hwk)]
        exact translate_eq_none hw hkept.wf
      rcases hwhy with ⟨he, hin, -⟩ | ⟨he, hw, hmapped, -⟩ | ⟨he, hw, hnone⟩
      · exact Or.inl ⟨he, hin⟩
      · exact Or.inr (Or.inl ⟨he, hw, fun h => hmapped ((hbefore hw).mp h)⟩)
      · exact Or.inr (Or.inr ⟨he, hw, (hbefore hw).mpr hnone⟩)
    · refine ⟨hrange.before, fun hpres v hv i hi hpage => ?_, fun v hv hout => ?_⟩
      · rw [hsame v hv]
        exact hrange.after hpres v hv i hi hpage
      · rw [hsame v hv]
        exact hrange.elsewhere v hv hout
  · cases h

end Neighbours

/-! ## From `new` on -/

section Reached

variable {σ : Type} [FrameAllocator σ] {hhdm : HhdmResponse} {s s₀ s₁ : PagingState σ}
  {pt : RecursivePageTable} {ops : List Op} {rs : List (Except PagingError Unit)}

/-- A state reached from `new` by operations outside the recursive slot is well
    formed, and the allocator's contract holds for the calls still to come. -/
theorem reached {k : Nat} (hnew : RecursivePageTable.new hhdm s = .ok (pt, s₀))
    (hops : ∀ op ∈ ops, op.Outside) (hrun : run pt ops s₀ = .ok (rs, s₁))
    (hfresh : Fresh (3 * ops.length + k + 1) ∅ s.alloc) :
    ∃ root pt', pt.load = .ok (pt', root) ∧ TreeWF pt root s₁.mem
      ∧ Fresh k (tables root s₁.mem) s₁.alloc := by
  obtain ⟨root, halloc, -, hwf, hmem⟩ := new_cases hnew
  have hfresh₀ := fresh_new halloc hmem hfresh
  have hkept := run_kept hops hwf (fresh_mono hfresh₀ (by omega)) hrun
  exact ⟨root, _, load_eq hwf, hkept.wf, hkept.fresh k (fresh_mono hfresh₀ (by omega))⟩

/-- With frames that have a place in the direct map, every such run returns. -/
theorem reached_total {k : Nat} (hnew : RecursivePageTable.new hhdm s = .ok (pt, s₀))
    (hops : ∀ op ∈ ops, op.Outside ∧ op.Aligned)
    (hfresh : Fresh (3 * ops.length + k + 1) ∅ s.alloc)
    (hlive : Live hhdm.offset.addr (3 * ops.length + k + 1) s.alloc) :
    ∃ rs s₁ root pt', run pt ops s₀ = .ok (rs, s₁) ∧ pt.load = .ok (pt', root)
      ∧ pt.internalOffset = hhdm.offset.addr ∧ TreeWF pt root s₁.mem
      ∧ Fresh k (tables root s₁.mem) s₁.alloc ∧ Live pt.internalOffset k s₁.alloc := by
  obtain ⟨root, halloc, hoff, hwf, hmem⟩ := new_cases hnew
  have hfresh₀ := fresh_new halloc hmem hfresh
  have hlive₀ := live_new halloc hlive
  rw [← hoff] at hlive₀
  obtain ⟨rs, s₁, hrun⟩ := run_total hops hwf (fresh_mono hfresh₀ (by omega))
    (live_mono hlive₀ (by omega))
  have hkept := run_kept (fun op hop => (hops op hop).1) hwf
    (fresh_mono hfresh₀ (by omega)) hrun
  exact ⟨rs, s₁, root, _, hrun, load_eq hkept.wf, hoff, hkept.wf,
    hkept.fresh k (fresh_mono hfresh₀ (by omega)),
    hkept.live k (live_mono hlive₀ (by omega))⟩

/-- `map` returns, also in the recursive slot. -/
theorem map_returns {root : PhysAddr} (hwf : TreeWF pt root s.mem)
    (hfresh : Fresh 3 (tables root s.mem) s.alloc) (hlive : Live pt.internalOffset 3 s.alloc)
    (from_ : PhysAddr) (to_ : VirtAddr) (flags : PageTableFlags)
    (hal : from_.addr % PAGE_SIZE = 0) :
    ∃ r s', pt.map from_ to_ flags s = .ok (r, s') := by
  by_cases hto : pageIndex 4 to_ = RECURSIVE
  · exact ⟨_, _, map_reserved hto⟩
  · obtain ⟨r, s', h, -⟩ := map_total hto hwf hfresh hlive hal
    exact ⟨r, s', h⟩

/-- **`map` IS SAFE AND ATOMIC.**  In every state reached from `new` by
    operations outside the recursive slot, with an allocator that may fail at
    any call, `map` returns.  When it returns an error, no translation outside
    the slot has changed, and only the error for a failed allocation has used
    the allocator; after that one the same call with an allocator that does not
    fail maps the page. -/
theorem map_safe_atomic (hnew : RecursivePageTable.new hhdm s = .ok (pt, s₀))
    (hops : ∀ op ∈ ops, op.Outside ∧ op.Aligned)
    (hfresh : Fresh (3 * ops.length + 3 + 1) ∅ s.alloc)
    (hlive : Live hhdm.offset.addr (3 * ops.length + 3 + 1) s.alloc)
    (from_ : PhysAddr) (to_ : VirtAddr) (flags : PageTableFlags)
    (hal : from_.addr % PAGE_SIZE = 0) :
    ∃ rs s₁ r s' root pt', run pt ops s₀ = .ok (rs, s₁) ∧ pt.load = .ok (pt', root)
      ∧ pt.map from_ to_ flags s₁ = .ok (r, s')
      ∧ ∀ e, r = .error e →
        (e = .attemptedMappingToReserved to_ ∨ e = .alreadyMapped to_
          ∨ e = .tableAllocationFailed)
        ∧ (∀ v, pageIndex 4 v ≠ RECURSIVE → pt.translate s'.mem v = pt.translate s₁.mem v)
        ∧ (e ≠ .tableAllocationFailed → s'.alloc = s₁.alloc)
        ∧ (e = .tableAllocationFailed → ∀ (τ : Type) [FrameAllocator τ] (a : τ),
          Fresh 3 (tables root s'.mem) a → Live hhdm.offset.addr 3 a → NeverFails 3 a →
          ∃ s'', pt.map from_ to_ flags (⟨s'.mem, a⟩ : PagingState τ) = .ok (.ok (), s'')
            ∧ (flags.contains .PRESENT = true → ∃ q : PhysAddr,
              q.addr = from_.addr + to_.addr % PAGE_SIZE
              ∧ pt.translate s''.mem to_ = .ok (some q))) := by
  obtain ⟨rs, s₁, root, pt', hrun, hload, hoff, hwf, hfresh₁, hlive₁⟩ :=
    reached_total hnew hops hfresh hlive
  rw [← hoff]
  obtain ⟨r, s', hmap⟩ := map_returns hwf hfresh₁ hlive₁ from_ to_ flags hal
  refine ⟨rs, s₁, r, s', root, pt', hrun, hload, hmap, ?_⟩
  rintro e rfl
  obtain ⟨hkept', hleaf, hwhy⟩ := map_refused hwf hfresh₁ hmap
  have htrans : ∀ v, pageIndex 4 v ≠ RECURSIVE →
      pt.translate s'.mem v = pt.translate s₁.mem v :=
    fun v hv => translate_congr hv hwf hkept'.wf (hleaf v hv)
  rcases hwhy with ⟨rfl, -, rfl⟩ | ⟨rfl, -, -, rfl⟩ | ⟨rfl, hto, hnone⟩
  · exact ⟨Or.inl rfl, htrans, fun _ => rfl, nofun⟩
  · exact ⟨Or.inr (Or.inl rfl), htrans, fun _ => rfl, nofun⟩
  refine ⟨Or.inr (Or.inr rfl), htrans, fun h => absurd rfl h, ?_⟩
  intro _ τ _ a hfresh' hlive' hnf'
  obtain ⟨s'', hmap'⟩ := map_accepts (s := (⟨s'.mem, a⟩ : PagingState τ)) flags hto
    hkept'.wf hfresh' hlive' hnf' hal ((hleaf to_ hto).trans hnone)
  refine ⟨s'', hmap', fun hpres => ?_⟩
  obtain ⟨hlaid, hkept'', -, -⟩ := map_laid (s := ⟨s'.mem, a⟩) hkept'.wf hfresh' hmap'
  exact translate_entryAt hto hkept''.wf from_.valid hal
    (hlaid.here to_ hto _ (List.mem_singleton.mpr rfl) rfl (PageTableEntry.isUnused_ofAddr hpres))

/-- The page at address `0x1000`, mapped. -/
def sampleMap : Op := .map sampleFrame ⟨0x1000, by decide⟩ flagsRw

theorem map_safe_atomic_sample :
    ∃ pt s₀ rs s₁ r s', RecursivePageTable.new sampleHhdm sampleState = .ok (pt, s₀)
      ∧ run pt [sampleMap] s₀ = .ok (rs, s₁)
      ∧ pt.map ⟨0x300000, by decide⟩ ⟨0x1000, by decide⟩ flagsRw s₁ = .ok (r, s')
      ∧ ∀ e, r = .error e →
        (∀ v, pageIndex 4 v ≠ RECURSIVE → pt.translate s'.mem v = pt.translate s₁.mem v)
        ∧ (e ≠ .tableAllocationFailed → s'.alloc = s₁.alloc) := by
  obtain ⟨hfresh, hlive, hnf⟩ := sampleState_contract (k := 3 * [sampleMap].length + 3 + 1)
    (by decide)
  obtain ⟨pt, s₀, hnew⟩ := new_total (live_mono hlive (by omega))
    (neverFails_mono hnf (by omega))
  obtain ⟨rs, s₁, r, s', _, _, hrun, -, hmap, hfail⟩ := map_safe_atomic hnew
    (by decide) hfresh hlive ⟨0x300000, by decide⟩ ⟨0x1000, by decide⟩ flagsRw (by decide)
  exact ⟨pt, s₀, rs, s₁, r, s', hnew, hrun, hmap, fun e he =>
    ⟨(hfail e he).2.1, (hfail e he).2.2.1⟩⟩

/-- **CONTIGUOUS MAPPING AND UNMAPPING.**  For a target range outside the
    recursive slot and a source range of physical addresses, with an allocator
    that does not fail, `map_contiguous` returns, and it returns `Ok` if and
    only if no page of the target was mapped.  Then it has mapped the target
    onto the source and nothing else, and `unmap_contiguous` takes exactly that
    back. -/
theorem mapContiguous_exact (hnew : RecursivePageTable.new hhdm s = .ok (pt, s₀))
    (hops : ∀ op ∈ ops, op.Outside) (hrun : run pt ops s₀ = .ok (rs, s₁))
    (pages : Nat) (from_ : PhysAddr) (to_ : VirtAddr) (flags : PageTableFlags)
    (hfresh : Fresh (3 * ops.length + 3 * pages + 1) ∅ s.alloc)
    (hlive : Live pt.internalOffset (3 * pages) s₁.alloc)
    (hnf : NeverFails (3 * pages) s₁.alloc)
    (hsize : pages * PAGE_SIZE < 2 ^ 64) (hfrom : from_.addr % PAGE_SIZE = 0)
    (hto : to_.addr % PAGE_SIZE = 0) (hphys : from_.addr + pages * PAGE_SIZE ≤ 2 ^ 52)
    (hvirt : RangeOutside to_ pages)
    (hpres : flags.contains .PRESENT = true) :
    ∃ r s₂, pt.mapContiguous pages from_ to_ flags s₁ = .ok (r, s₂)
      ∧ (r = .ok () ↔ ∀ i < pages * PAGE_SIZE, ∀ v : VirtAddr, v.addr = to_.addr + i →
        pt.translate s₁.mem v = .ok none)
      ∧ (r = .ok () →
        (∀ i < pages * PAGE_SIZE, ∀ v : VirtAddr, v.addr = to_.addr + i →
          ∃ q : PhysAddr, q.addr = from_.addr + i ∧ pt.translate s₂.mem v = .ok (some q))
        ∧ (∀ v, pageIndex 4 v ≠ RECURSIVE →
          ¬ (to_.addr ≤ v.addr ∧ v.addr < to_.addr + pages * PAGE_SIZE) →
          pt.translate s₂.mem v = pt.translate s₁.mem v)
        ∧ ∃ s₃, pt.unmapContiguous pages to_ s₂ = .ok (.ok (), s₃)
          ∧ ∀ v, pageIndex 4 v ≠ RECURSIVE →
            pt.translate s₃.mem v = pt.translate s₁.mem v) := by
  obtain ⟨root, _, -, hwf, hfresh₁⟩ := reached hnew hops hrun hfresh
  have hms := mappable_pagesFrom hvirt hfrom hphys
  have hlen : (pagesFrom from_.addr to_.addr pages).length = pages := pagesFrom_length _ _ _
  obtain ⟨r, s₂, hmap, hok⟩ := mapPages_returns flags hms hwf (by rwa [hlen])
    (by rwa [hlen])
  rw [hlen] at hok
  have hmapped : r = .ok () → MappedRange pt flags from_ to_ pages s₁.mem s₂.mem
      ∧ TreeWF pt root s₂.mem := by
    rintro rfl
    obtain ⟨hlaid, hkept, -⟩ := mapPages_laid hwf (by rwa [hlen]) hmap
    exact ⟨hlaid.mappedRange hwf hkept.wf hms, hkept.wf⟩
  refine ⟨r, s₂, by rw [mapContiguous_eq, if_pos hsize, hmap], ⟨?_, ?_⟩, ?_⟩
  · intro hr i hi v hv
    exact (hmapped hr).1.before_at hvirt hto hi hv
  · intro hnone
    refine hok hnf (nodup_pagesFrom _ _ _) ?_
    rintro v hv ⟨m, hm, hpage⟩
    obtain ⟨i, hi, rfl⟩ := mem_pagesFrom.mp hm
    rw [page_add] at hpage
    obtain ⟨hlo, hhi⟩ := (page_in_range hto).mp ⟨i, hi, hpage.symm⟩
    rw [← translate_eq_none hv hwf]
    exact hnone (v.addr - to_.addr) (by omega) v (by omega)
  · intro hr
    obtain ⟨hrange, hwf₂⟩ := hmapped hr
    exact ⟨fun i hi v hv => hrange.after_at hpres hvirt hto hi hv,
      fun v hv hout => hrange.elsewhere_at hto hv hout,
      unmapContiguous_undoes hwf₂ hrange hpres hvirt hsize⟩

theorem mapContiguous_exact_sample :
    ∃ pt s₀ s₁ s₂, RecursivePageTable.new sampleHhdm sampleState = .ok (pt, s₀)
      ∧ pt.mapContiguous 2 ⟨0x300000, by decide⟩ ⟨0x1000, by decide⟩ flagsRw s₀
        = .ok (.ok (), s₁)
      ∧ pt.unmapContiguous 2 ⟨0x1000, by decide⟩ s₁ = .ok (.ok (), s₂)
      ∧ ∀ v, pageIndex 4 v ≠ RECURSIVE → pt.translate s₂.mem v = pt.translate s₀.mem v := by
  obtain ⟨hfresh, hlive, hnf⟩ := sampleState_contract (k := 3 * 2 + 1) (by decide)
  obtain ⟨pt, s₀, hnew⟩ := new_total (live_mono hlive (by omega))
    (neverFails_mono hnf (by omega))
  obtain ⟨root, halloc, hoff, hwf, hmem⟩ := new_cases hnew
  have hvirt : RangeOutside ⟨0x1000, by decide⟩ 2 := by
    intro i hi
    have hi' : i < 8192 := hi
    refine ⟨⟨0x1000 + i, Or.inl (by omega)⟩, rfl, fun h => ?_⟩
    have hidx : (0x1000 + i) / 2 ^ 39 % 512 = 510 := congrArg Fin.val h
    omega
  have hlive₀ := live_new halloc hlive
  rw [← hoff] at hlive₀
  have hops : ∀ op ∈ ([] : List Op), op.Outside := nofun
  obtain ⟨r, s₁, hmap, hiff, hok⟩ := mapContiguous_exact hnew hops rfl 2
    ⟨0x300000, by decide⟩ ⟨0x1000, by decide⟩ flagsRw hfresh hlive₀ (neverFails_new halloc hnf)
    (by decide) (by decide) (by decide) (by decide) hvirt (by decide)
  have hr : r = .ok () := by
    refine hiff.mpr fun i hi v hv => ?_
    have hout := hvirt.outside (v := v) (by omega) (by omega)
    rw [translate_eq_none hout hwf, hmem]
    exact leafEntry_newMem hout
  subst hr
  obtain ⟨-, -, s₂, hunmap, hback⟩ := hok rfl
  exact ⟨pt, s₀, s₁, s₂, hnew, hmap, hunmap, hback⟩

/-- The last frame that a physical address can name. -/
def topFrame : PhysAddr := ⟨0xFFFFFFFFFF000, by decide⟩

/-- The sum of a physical address with an offset is checked, and the tables
    that a mapping links can be seen through the recursive slot, also when the
    mapping is taken back. -/
theorem mapContiguous_limits :
    (∃ pt s₀, RecursivePageTable.new sampleHhdm sampleState = .ok (pt, s₀)
      ∧ pt.translate s₀.mem ⟨0x1000, by decide⟩ = .ok none
      ∧ pt.translate s₀.mem ⟨0x2000, by decide⟩ = .ok none
      ∧ pt.mapContiguous 2 topFrame ⟨0x1000, by decide⟩ flagsRw s₀
        = .error .invalidAddress)
    ∧ ∃ pt s₀ s₁ s₂, RecursivePageTable.new sampleHhdm sampleState = .ok (pt, s₀)
      ∧ pt.mapContiguous 1 ⟨0x300000, by decide⟩ ⟨0x1000, by decide⟩ flagsRw s₀
        = .ok (.ok (), s₁)
      ∧ pt.unmapContiguous 1 ⟨0x1000, by decide⟩ s₁ = .ok (.ok (), s₂)
      ∧ pt.translate s₀.mem slotView = .ok none
      ∧ pt.translate s₁.mem slotView = .ok (some ⟨0x103000, by decide⟩)
      ∧ pt.translate s₂.mem slotView = .ok (some ⟨0x103000, by decide⟩) := by
  constructor
  · have h : (show Panics _ from do
        let (pt, s₀) ← RecursivePageTable.new sampleHhdm sampleState
        let a ← pt.translate s₀.mem ⟨0x1000, by decide⟩
        let b ← pt.translate s₀.mem ⟨0x2000, by decide⟩
        return (a, b, (pt.mapContiguous 2 topFrame ⟨0x1000, by decide⟩ flagsRw
          s₀).map Prod.fst)) = .ok (none, none, .error .invalidAddress) := by decide +kernel
    obtain ⟨⟨pt, s₀⟩, hnew, h⟩ := bind_eq_ok.mp h
    obtain ⟨a, ha, h⟩ := bind_eq_ok.mp h
    obtain ⟨b, hb, h⟩ := bind_eq_ok.mp h
    obtain ⟨rfl, hrest⟩ := Prod.mk.inj (Except.ok.inj h)
    obtain ⟨rfl, hpanic⟩ := Prod.mk.inj hrest
    refine ⟨pt, s₀, hnew, ha, hb, ?_⟩
    revert hpanic
    generalize pt.mapContiguous 2 topFrame ⟨0x1000, by decide⟩ flagsRw s₀ = x
    intro hpanic
    cases x with
    | error e =>
        cases hpanic
        rfl
    | ok y => cases hpanic
  · have h : (show Panics _ from do
        let (pt, s₀) ← RecursivePageTable.new sampleHhdm sampleState
        let (r₁, s₁) ← pt.mapContiguous 1 ⟨0x300000, by decide⟩ ⟨0x1000, by decide⟩ flagsRw s₀
        let (r₂, s₂) ← pt.unmapContiguous 1 ⟨0x1000, by decide⟩ s₁
        let a ← pt.translate s₀.mem slotView
        let b ← pt.translate s₁.mem slotView
        let c ← pt.translate s₂.mem slotView
        return (r₁, r₂, a, b, c)) = .ok (.ok (), .ok (), none, some ⟨0x103000, by decide⟩,
          some ⟨0x103000, by decide⟩) := by decide +kernel
    obtain ⟨⟨pt, s₀⟩, hnew, h⟩ := bind_eq_ok.mp h
    obtain ⟨⟨r₁, s₁⟩, hmap, h⟩ := bind_eq_ok.mp h
    obtain ⟨⟨r₂, s₂⟩, hunmap, h⟩ := bind_eq_ok.mp h
    obtain ⟨a, ha, h⟩ := bind_eq_ok.mp h
    obtain ⟨b, hb, h⟩ := bind_eq_ok.mp h
    obtain ⟨c, hc, h⟩ := bind_eq_ok.mp h
    cases h
    exact ⟨pt, s₀, s₁, s₂, hnew, hmap, hunmap, ha, hb, hc⟩

/-- **WHAT A FAILED LOOP LEAVES BEHIND.**  Both loops stop at the first page
    that `map` or `unmap` refuses and undo nothing: the pages before it stay
    mapped, or unmapped, and nothing else outside the recursive slot has
    changed. -/
theorem contiguous_stops_midway (hnew : RecursivePageTable.new hhdm s = .ok (pt, s₀))
    (hops : ∀ op ∈ ops, op.Outside) (hrun : run pt ops s₀ = .ok (rs, s₁)) (pages : Nat)
    (hfresh : Fresh (3 * ops.length + 3 * pages + 1) ∅ s.alloc) :
    (∀ from_ to_ flags e s₂, pt.mapContiguous pages from_ to_ flags s₁ = .ok (.error e, s₂) →
      ∃ k < pages, ∃ w : VirtAddr, w.addr = to_.addr + k * PAGE_SIZE
        ∧ ((e = .attemptedMappingToReserved w ∧ pageIndex 4 w = RECURSIVE)
          ∨ (e = .alreadyMapped w ∧ pageIndex 4 w ≠ RECURSIVE
            ∧ pt.translate s₁.mem w ≠ .ok none)
          ∨ (e = .tableAllocationFailed ∧ pageIndex 4 w ≠ RECURSIVE
            ∧ pt.translate s₁.mem w = .ok none))
        ∧ MappedRange pt flags from_ to_ k s₁.mem s₂.mem)
    ∧ (∀ address e s₂, AllOutside ((List.range pages).map fun i => address.addr + i * PAGE_SIZE) →
      pt.unmapContiguous pages address s₁ = .ok (.error e, s₂) →
      ∃ k < pages, ∃ w : VirtAddr, w.addr = address.addr + k * PAGE_SIZE
        ∧ e = .notMapped w ∧ pt.translate s₁.mem w = .ok none
        ∧ UnmappedRange pt address k s₁.mem s₂.mem) := by
  obtain ⟨root, _, -, hwf, hfresh₁⟩ := reached hnew hops hrun hfresh
  exact ⟨fun from_ to_ flags e s₂ h => mapContiguous_stops hwf hfresh₁ h,
    fun address e s₂ hout h => unmapContiguous_stops hwf hout h⟩

theorem contiguous_stops_midway_sample :
    ∃ pt s₀ rs s₁, RecursivePageTable.new sampleHhdm sampleState = .ok (pt, s₀)
      ∧ run pt [sampleMap] s₀ = .ok (rs, s₁)
      ∧ ∀ from_ to_ flags e s₂, pt.mapContiguous 2 from_ to_ flags s₁ = .ok (.error e, s₂) →
        ∃ k < 2, MappedRange pt flags from_ to_ k s₁.mem s₂.mem := by
  obtain ⟨hfresh, hlive, hnf⟩ := sampleState_contract (k := 3 * [sampleMap].length + 3 * 2 + 1)
    (by decide)
  obtain ⟨pt, s₀, hnew⟩ := new_total (live_mono hlive (by omega))
    (neverFails_mono hnf (by omega))
  obtain ⟨rs, s₁, -, -, hrun, -⟩ := reached_total (k := 3 * 2) hnew
    (show ∀ op ∈ [sampleMap], op.Outside ∧ op.Aligned by decide) hfresh hlive
  refine ⟨pt, s₀, rs, s₁, hnew, hrun, fun from_ to_ flags e s₂ h => ?_⟩
  obtain ⟨k, hk, -, -, -, hrange⟩ := (contiguous_stops_midway hnew (by decide) hrun 2 hfresh).1
    from_ to_ flags e s₂ h
  exact ⟨k, hk, hrange⟩

/-- A second page that is already mapped stops both loops after the first
    page was changed. -/
theorem contiguous_not_atomic :
    (∃ pt s₀ rs s₁ s₂, RecursivePageTable.new sampleHhdm sampleState = .ok (pt, s₀)
      ∧ run pt [sampleMap] s₀ = .ok (rs, s₁)
      ∧ pt.mapContiguous 2 ⟨0x300000, by decide⟩ ⟨0, by decide⟩ flagsRw s₁
        = .ok (.error (.alreadyMapped ⟨0x1000, by decide⟩), s₂)
      ∧ pt.translate s₁.mem ⟨0, by decide⟩ = .ok none
      ∧ pt.translate s₂.mem ⟨0, by decide⟩ = .ok (some ⟨0x300000, by decide⟩))
    ∧ ∃ pt s₀ rs s₁ s₂, RecursivePageTable.new sampleHhdm sampleState = .ok (pt, s₀)
      ∧ run pt [sampleMap] s₀ = .ok (rs, s₁)
      ∧ pt.unmapContiguous 2 ⟨0x1000, by decide⟩ s₁
        = .ok (.error (.notMapped ⟨0x2000, by decide⟩), s₂)
      ∧ pt.translate s₁.mem ⟨0x1000, by decide⟩ = .ok (some ⟨0x200000, by decide⟩)
      ∧ pt.translate s₂.mem ⟨0x1000, by decide⟩ = .ok none := by
  constructor
  · have h : (show Panics _ from do
        let (pt, s₀) ← RecursivePageTable.new sampleHhdm sampleState
        let (_, s₁) ← run pt [sampleMap] s₀
        let (r, s₂) ← pt.mapContiguous 2 ⟨0x300000, by decide⟩ ⟨0, by decide⟩ flagsRw s₁
        let a ← pt.translate s₁.mem ⟨0, by decide⟩
        let b ← pt.translate s₂.mem ⟨0, by decide⟩
        return (r, a, b)) = .ok (.error (.alreadyMapped ⟨0x1000, by decide⟩), none,
          some ⟨0x300000, by decide⟩) := by decide +kernel
    obtain ⟨⟨pt, s₀⟩, hnew, h⟩ := bind_eq_ok.mp h
    obtain ⟨⟨rs, s₁⟩, hrun, h⟩ := bind_eq_ok.mp h
    obtain ⟨⟨r, s₂⟩, hmap, h⟩ := bind_eq_ok.mp h
    obtain ⟨a, ha, h⟩ := bind_eq_ok.mp h
    obtain ⟨b, hb, h⟩ := bind_eq_ok.mp h
    cases h
    exact ⟨pt, s₀, rs, s₁, s₂, hnew, hrun, hmap, ha, hb⟩
  · have h : (show Panics _ from do
        let (pt, s₀) ← RecursivePageTable.new sampleHhdm sampleState
        let (_, s₁) ← run pt [sampleMap] s₀
        let (r, s₂) ← pt.unmapContiguous 2 ⟨0x1000, by decide⟩ s₁
        let a ← pt.translate s₁.mem ⟨0x1000, by decide⟩
        let b ← pt.translate s₂.mem ⟨0x1000, by decide⟩
        return (r, a, b)) = .ok (.error (.notMapped ⟨0x2000, by decide⟩),
          some ⟨0x200000, by decide⟩, none) := by decide +kernel
    obtain ⟨⟨pt, s₀⟩, hnew, h⟩ := bind_eq_ok.mp h
    obtain ⟨⟨rs, s₁⟩, hrun, h⟩ := bind_eq_ok.mp h
    obtain ⟨⟨r, s₂⟩, hunmap, h⟩ := bind_eq_ok.mp h
    obtain ⟨a, ha, h⟩ := bind_eq_ok.mp h
    obtain ⟨b, hb, h⟩ := bind_eq_ok.mp h
    cases h
    exact ⟨pt, s₀, rs, s₁, s₂, hnew, hrun, hunmap, ha, hb⟩

end Reached

end KermolContiguous
