import Kermol.TableDemandProofs

/-! # Where a mapping stops

    `map_contiguous` calls `map` page by page and returns at the first error.
    The tables before the call, and the frames the allocator has left, say at
    which page that is (`StopsAt`); what the loop has done by then stays
    (`Stopped`).

    * `mapPages_err` and `mapPages_stops`: a loop that returned an error stopped
      there, and a loop stops there;
    * `Stopped.unchanged_iff`: an error left every translation as it was only
      where nothing had been linked or written. -/

namespace KermolMapFailure

open RustEffect X86Paging KermolFrameAllocator KermolPageTable KermolPageTree
open KermolMapStep KermolPageTableRun KermolBootTables KermolContiguous
open KermolRecursiveSlot KermolTableDemand RadixTree

/-! ## A loop of `map`s -/

section Pages

variable {σ : Type} [FrameAllocator σ] {pt : RecursivePageTable} {root : PhysAddr}
  {flags : PageTableFlags} {s s₁ s' : PagingState σ} {ms ms₁ ms₂ done rest : List (Nat × Nat)}
  {m : Nat × Nat} {gs gs₁ gs₂ : List PhysAddr}

/-- The addresses of the pages. -/
def addressesOf (ms : List (Nat × Nat)) : List Nat := ms.map Prod.snd

theorem outside_addressesOf (h : ∀ m ∈ ms, Mappable m) : Outside (addressesOf ms) := by
  intro a ha
  obtain ⟨m, hm, rfl⟩ := List.mem_map.mp ha
  exact (h m hm).virt

/-- The pages `ms` were mapped, with `gs` as new tables. -/
structure MappedPages (pt : RecursivePageTable) (root : PhysAddr) (flags : PageTableFlags)
    (ms : List (Nat × Nat)) (gs : List PhysAddr) (s s' : PagingState σ) : Prop where
  linked : Linked pt root (addressesOf ms) gs s s'
  laid : Laid root (leavesOf flags ms) s s'
  length : gs.length = tablesMissing root s.mem (addressesOf ms)
  reached : Reached root s'.mem (addressesOf ms)
  mappable : ∀ m ∈ ms, Mappable m
  quiet : gs = [] → (∀ m ∈ ms, (entryAt m.1 flags).isUnused = true) → s'.mem = s.mem

theorem MappedPages.nil (hwf : TreeWF pt root s.mem) : MappedPages pt root flags [] [] s s where
  linked := Linked.refl _ hwf
  laid := Laid.nil root s
  length := rfl
  reached := nofun
  mappable := nofun
  quiet := fun _ _ => rfl

theorem MappedPages.append (h₁ : MappedPages pt root flags ms₁ gs₁ s s₁)
    (h₂ : MappedPages pt root flags ms₂ gs₂ s₁ s') :
    MappedPages pt root flags (ms₁ ++ ms₂) (gs₁ ++ gs₂) s s' where
  linked := by
    rw [addressesOf, List.map_append]
    exact h₁.linked.trans h₂.linked
  laid := by
    rw [leavesOf, List.map_append]
    exact h₁.laid.append h₂.laid
  length := by
    rw [addressesOf, List.map_append, List.length_append, h₁.length, h₂.length]
    exact (tablesMissing_append h₁.linked h₁.reached (outside_addressesOf h₂.mappable)).symm
  reached := by
    intro a ha
    rw [addressesOf, List.map_append] at ha
    rcases List.mem_append.mp ha with ha | ha
    · obtain ⟨m, hm, rfl⟩ := List.mem_map.mp ha
      obtain ⟨v, hv, t, ht⟩ := h₁.reached _ ha
      obtain ⟨v', hv', hout⟩ := (h₁.mappable m hm).virt
      cases VirtAddr.ext (hv.trans hv'.symm)
      exact ⟨v, hv, t, h₂.linked.walks _ (tablePath_mem hout) t ht⟩
    · exact h₂.reached a ha
  mappable := by
    intro m hm
    rcases List.mem_append.mp hm with hm | hm
    · exact h₁.mappable m hm
    · exact h₂.mappable m hm
  quiet := by
    intro hnil hunused
    obtain ⟨hg₁, hg₂⟩ := List.append_eq_nil_iff.mp hnil
    rw [h₂.quiet hg₂ fun m hm => hunused m (List.mem_append_right _ hm),
      h₁.quiet hg₁ fun m hm => hunused m (List.mem_append_left _ hm)]

/-- What the allocator hands out next is fresh for the rest of the request. -/
theorem MappedPages.fresh {bs : List Nat} (h : MappedPages pt root flags ms gs s s₁)
    (hout : Outside bs)
    (hf : FreshGrants pt.internalOffset (tablesMissing root s.mem (addressesOf ms ++ bs))
      (tables root s.mem) s.alloc) :
    FreshGrants pt.internalOffset (tablesMissing root s₁.mem bs) (tables root s₁.mem)
      s₁.alloc := by
  rw [tablesMissing_append h.linked h.reached hout, ← h.length] at hf
  rw [h.linked.tables_eq]
  exact hf.after h.linked.granted

/-- One page. -/
theorem mapPage_mapped (hwf : TreeWF pt root s.mem)
    (hfresh : FreshGrants pt.internalOffset (tablesMissing root s.mem (addressesOf [m]))
      (tables root s.mem) s.alloc)
    (h : mapPage pt flags m s = .ok (.ok (), s')) :
    ∃ gs, MappedPages pt root flags [m] gs s s' := by
  obtain ⟨p, v, hp, hv, hmap⟩ := mapPage_eq_ok.mp h
  have hout : pageIndex 4 v ≠ RECURSIVE := by
    intro hin
    rw [map_reserved hin] at hmap
    cases hmap
  have hadd : addressesOf [m] = [v.addr] := by rw [hv]; rfl
  rw [hadd] at hfresh
  obtain ⟨gs, hfollow⟩ := map_followed hout hwf hfresh hmap
  cases hfollow with
  | @mapped gs s₁ t hnone hal hlen hcreated ht =>
      have hleaf : leavesOf flags [m] = [(v.page, PageTableEntry.ofAddr p flags)] := by
        rw [ofAddr_eq_entryAt, VirtAddr.page, hp, hv]
        rfl
      refine ⟨gs, ?_, ?_, by rw [hadd, hlen], ?_, ?_, ?_⟩
      · have hentry : Linked pt root [] [] s₁ ⟨setEntry s₁.mem t (pageIndex 1 v) (.ofAddr p flags),
            s₁.alloc⟩ := linked_leaf hout hcreated.wf ht _
        rw [hadd, ← List.append_nil gs]
        exact (hcreated.toLinked.trans hentry).mono (by simp)
      · rw [hleaf]
        exact laid_leaf hout hcreated.wf hcreated.leaves hnone ht _
      · intro a ha
        rw [hadd] at ha
        refine ⟨v, (List.mem_singleton.mp ha).symm, t, ?_⟩
        rwa [walk_setEntry_leaf prefixClosed_tablePaths hcreated.wf.unshared _
          (tablePath_mem hout) ht (tablePath_snoc_notMem v _) (tablePath_mem hout)]
      · intro m' hm'
        rw [List.mem_singleton.mp hm']
        exact ⟨hp ▸ p.valid, hp ▸ hal, v, hv, hout⟩
      · intro hnil hunused
        refine (hcreated.leaf_quiet hout hnone ht ?_).trans (hcreated.quiet hnil)
        rw [ofAddr_eq_entryAt, hp]
        exact isUnused_iff.mp (hunused m (List.mem_singleton.mpr rfl))

/-- **A LOOP THAT RETURNED `Ok`.** -/
theorem mapPages_mapped (hwf : TreeWF pt root s.mem) :
    ∀ {s' : PagingState σ},
      FreshGrants pt.internalOffset (tablesMissing root s.mem (addressesOf ms))
        (tables root s.mem) s.alloc →
      forEach (mapPage pt flags) ms s = .ok (.ok (), s') →
      ∃ gs, MappedPages pt root flags ms gs s s' := by
  induction ms using List.reverseRecOn with
  | nil =>
      intro s' _ h
      cases h
      exact ⟨[], MappedPages.nil hwf⟩
  | append_singleton ms m ih =>
      intro s' hfresh h
      rw [forEach_append] at h
      obtain ⟨_, s₁, hdone, hlast⟩ := andThen_eq_ok h
      rw [forEach_singleton] at hlast
      have hsub : addressesOf ms ⊆ addressesOf (ms ++ [m]) := by simp [addressesOf]
      obtain ⟨gs₁, h₁⟩ := ih (hfresh.mono (tablesMissing_mono hsub)) hdone
      have hout : Outside [m.2] := by
        obtain ⟨p, v, hp, hv, hmap⟩ := mapPage_eq_ok.mp hlast
        intro a ha
        refine ⟨v, hv.trans (List.mem_singleton.mp ha).symm, fun hin => ?_⟩
        rw [map_reserved hin] at hmap
        cases hmap
      rw [addressesOf, List.map_append] at hfresh
      obtain ⟨gs₂, h₂⟩ := mapPage_mapped h₁.linked.wf (h₁.fresh hout hfresh) hlast
      exact ⟨gs₁ ++ gs₂, h₁.append h₂⟩

/-- The allocator hands out two lists of frames one of which is longer; with the
    same length they are the same. -/
theorem MappedPages.grants_unique (h : MappedPages pt root flags ms gs₁ s s₁) {a' : σ}
    (hg : Granted pt.internalOffset gs s.alloc a')
    (hlen : gs.length = tablesMissing root s.mem (addressesOf ms)) : gs = gs₁ ∧ a' = s₁.alloc :=
  hg.unique h.linked.granted (hlen.trans h.length.symm)

/-- Outside the pages of a loop the leaf entries are as before. -/
theorem MappedPages.leaf_kept (h : MappedPages pt root flags ms gs s s₁) {v : VirtAddr}
    (hv : pageIndex 4 v ≠ RECURSIVE) (hne : ∀ d ∈ ms, d.2 / PAGE_SIZE ≠ v.page) :
    leafEntry root s₁.mem v = leafEntry root s.mem v := by
  refine h.laid.there v hv fun w hw => ?_
  obtain ⟨d, hd, rfl⟩ := List.mem_map.mp hw
  exact hne d hd

/-- The pages of a loop differ from the page behind it. -/
theorem page_ne_of_nodup (hnodup : ((ms ++ m :: rest).map fun m => m.2 / PAGE_SIZE).Nodup) :
    ∀ d ∈ ms, d.2 / PAGE_SIZE ≠ m.2 / PAGE_SIZE := by
  intro d hd
  rw [List.map_append, List.nodup_append] at hnodup
  exact hnodup.2.2 _ (List.mem_map_of_mem hd) _ (List.mem_map_of_mem List.mem_cons_self)

/-- **A LOOP RETURNS `Ok`** when its pages can be mapped and are not mapped yet,
    and the allocator hands out a frame for each table they miss. -/
theorem mapPages_granted (flags : PageTableFlags) (hwf : TreeWF pt root s.mem) :
    ∀ {gs : List PhysAddr} {a' : σ},
      (∀ m ∈ ms, Mappable m) → Unmapped root s.mem ms →
      (ms.map fun m => m.2 / PAGE_SIZE).Nodup →
      FreshGrants pt.internalOffset (tablesMissing root s.mem (addressesOf ms))
        (tables root s.mem) s.alloc →
      Granted pt.internalOffset gs s.alloc a' →
      gs.length = tablesMissing root s.mem (addressesOf ms) →
      ∃ s', forEach (mapPage pt flags) ms s = .ok (.ok (), s')
        ∧ MappedPages pt root flags ms gs s s' ∧ s'.alloc = a' := by
  induction ms using List.reverseRecOn with
  | nil =>
      intro gs a' _ _ _ _ hg hlen
      cases List.length_eq_zero_iff.mp hlen
      exact ⟨s, rfl, MappedPages.nil hwf, hg.symm⟩
  | append_singleton ms m ih =>
      intro gs a' hmap hun hnodup hfresh hg hlen
      obtain ⟨hphys, hal, v, hv, hout⟩ := hmap m (by simp)
      have hsub : addressesOf ms ⊆ addressesOf (ms ++ [m]) := by simp [addressesOf]
      have hle : tablesMissing root s.mem (addressesOf ms)
          ≤ tablesMissing root s.mem (addressesOf (ms ++ [m])) := tablesMissing_mono hsub
      obtain ⟨g₁, g₂, a₁, rfl, hlen₁, hg₁, hg₂⟩ := hg.split (hlen ▸ hle)
      obtain ⟨s₁, hdone, h₁, rfl⟩ := ih (fun d hd => hmap d (List.mem_append_left _ hd))
        (fun u hu ⟨d, hd, hpage⟩ => hun u hu ⟨d, List.mem_append_left _ hd, hpage⟩)
        (hnodup.sublist (by simp)) (hfresh.mono hle) hg₁ hlen₁
      have houts : Outside [v.addr] := fun a ha => ⟨v, (List.mem_singleton.mp ha).symm, hout⟩
      have hadd : addressesOf (ms ++ [m]) = addressesOf ms ++ [v.addr] := by
        rw [addressesOf, List.map_append, hv]
        rfl
      rw [hadd] at hfresh hlen
      have hfresh₁ := h₁.fresh houts hfresh
      rw [tablesMissing_append h₁.linked h₁.reached houts, List.length_append, hlen₁] at hlen
      have hnone : leafEntry root s₁.mem v = none := by
        rw [h₁.leaf_kept hout]
        · exact hun v hout ⟨m, by simp, by rw [VirtAddr.page, hv]; rfl⟩
        · intro d hd
          rw [VirtAddr.page, hv]
          exact page_ne_of_nodup hnodup d hd
      obtain ⟨r, s', hstep⟩ := map_granted ⟨m.1, hphys⟩ flags hout h₁.linked.wf hfresh₁
        hg₂ (Or.inl (Nat.add_left_cancel hlen)) fun _ _ => hal
      obtain ⟨gs', hfollow⟩ := map_followed hout h₁.linked.wf hfresh₁ hstep
      cases hfollow with
      | refused hused => exact absurd hnone hused
      | stopped _ hlt hcreated hex =>
          exact absurd ⟨_, hex⟩ (hg₂.not_exhausted hcreated.granted (by omega))
      | mapped =>
          have hpage := mapPage_eq_ok.mpr ⟨⟨m.1, hphys⟩, v, rfl, hv, hstep⟩
          have hone : addressesOf [m] = [v.addr] := by rw [hv]; rfl
          obtain ⟨gs₂, h₂⟩ := mapPage_mapped h₁.linked.wf (by rwa [hone]) hpage
          obtain ⟨rfl, halloc⟩ := h₂.grants_unique hg₂ (by rw [hone]; omega)
          refine ⟨_, ?_, h₁.append h₂, halloc.symm⟩
          rw [forEach_append, hdone, andThen_ok, forEach_singleton, hpage]

/-! ### Where a loop stops -/

/-- The tables before a loop make it stop at page `m`, behind the pages `done`,
    with `n` frames linked; `ex` says that the allocator then answers with an
    error.  The pages before could be mapped; page `m` cannot, or it needs a
    table more. -/
structure StopsAt (root : PhysAddr) (mem : PhysMem) (done : List (Nat × Nat)) (m : Nat × Nat)
    (n : Nat) (ex : Prop) : Prop where
  mappable : ∀ d ∈ done, Mappable d
  unmapped : Unmapped root mem done
  phys : m.1 < 2 ^ 52
  why : ∃ v : VirtAddr, v.addr = m.2 ∧
    (n = tablesMissing root mem (addressesOf done)
        ∧ (pageIndex 4 v = RECURSIVE ∨ leafEntry root mem v ≠ none)
      ∨ pageIndex 4 v ≠ RECURSIVE ∧ tablesMissing root mem (addressesOf done) ≤ n
        ∧ n < tablesMissing root mem (addressesOf (done ++ [m])) ∧ ex)

/-- What a loop that stopped there has done. -/
structure Stopped (pt : RecursivePageTable) (root : PhysAddr) (flags : PageTableFlags)
    (done : List (Nat × Nat)) (m : Nat × Nat) (gs : List PhysAddr) (s s' : PagingState σ) :
    Prop where
  linked : ∃ a', Linked pt root (addressesOf (done ++ [m])) gs s ⟨s'.mem, a'⟩
    ∧ (s'.alloc = a' ∨ Failed a' s'.alloc)
  laid : Laid root (leavesOf flags done) s s'
  quiet : gs = [] → (∀ d ∈ done, (entryAt d.1 flags).isUnused = true) → s'.mem = s.mem

theorem MappedPages.stopped (h₁ : MappedPages pt root flags done gs₁ s s₁) {a' : σ}
    (h₂ : Created pt root [m.2] gs₂ s₁ ⟨s'.mem, a'⟩)
    (hleft : s'.alloc = a' ∨ Failed a' s'.alloc) :
    Stopped pt root flags done m (gs₁ ++ gs₂) s s' where
  linked := by
    refine ⟨a', ?_, hleft⟩
    rw [addressesOf, List.map_append]
    exact h₁.linked.trans h₂.toLinked
  laid := ⟨h₁.laid.absent,
    fun v hv w hw hpage hused => (h₂.leaves v hv).trans (h₁.laid.here v hv w hw hpage hused),
    fun v hv hne => (h₂.leaves v hv).trans (h₁.laid.there v hv hne)⟩
  quiet := by
    intro hnil hunused
    obtain ⟨hg₁, hg₂⟩ := List.append_eq_nil_iff.mp hnil
    exact (h₂.quiet hg₂).trans (h₁.quiet hg₁ hunused)

theorem addressesOf_snoc (ms : List (Nat × Nat)) (m : Nat × Nat) :
    addressesOf (ms ++ [m]) = addressesOf ms ++ [m.2] := by
  rw [addressesOf, List.map_append]
  rfl

/-- The pages up to the one a loop stops at miss no more than all its pages. -/
theorem tablesMissing_upto (mem : PhysMem) (done rest : List (Nat × Nat)) (m : Nat × Nat) :
    tablesMissing root mem (addressesOf done ++ [m.2])
      ≤ tablesMissing root mem (addressesOf (done ++ m :: rest)) := by
  refine tablesMissing_mono ?_
  simp [addressesOf]

/-- **A LOOP THAT STOPPED** stopped where the tables before it say. -/
theorem mapPages_err {e : PagingError} (hwf : TreeWF pt root s.mem)
    (hnodup : (ms.map fun m => m.2 / PAGE_SIZE).Nodup)
    (hfresh : FreshGrants pt.internalOffset (tablesMissing root s.mem (addressesOf ms))
      (tables root s.mem) s.alloc)
    (h : forEach (mapPage pt flags) ms s = .ok (.error e, s')) :
    ∃ done m rest gs a', ms = done ++ m :: rest ∧ Granted pt.internalOffset gs s.alloc a'
      ∧ StopsAt root s.mem done m gs.length (Exhausted a')
      ∧ Stopped pt root flags done m gs s s' := by
  obtain ⟨done, m, rest, s₁, rfl, hdone, hlast⟩ := forEach_error h
  have hupto := hfresh.mono (tablesMissing_upto s.mem done rest m)
  obtain ⟨gs₁, h₁⟩ := mapPages_mapped hwf
    (hupto.mono (tablesMissing_mono (List.subset_append_left _ _))) hdone
  obtain ⟨p, v, hp, hv, hmap⟩ := mapPage_eq_ok.mp hlast
  have hphys : m.1 < 2 ^ 52 := hp ▸ p.valid
  by_cases hin : pageIndex 4 v = RECURSIVE
  · -- the recursive slot
    rw [map_reserved hin] at hmap
    cases hmap
    refine ⟨done, m, rest, gs₁ ++ [], s'.alloc, rfl, ?_, ⟨h₁.mappable, h₁.laid.unmapped, hphys,
      v, hv, Or.inl ⟨?_, Or.inl hin⟩⟩, h₁.stopped (Created.refl _ h₁.linked.wf) (Or.inl rfl)⟩
    · rw [List.append_nil]
      exact h₁.linked.granted
    · rw [List.append_nil, h₁.length]
  have houts : Outside [m.2] := fun a ha => ⟨v, hv.trans (List.mem_singleton.mp ha).symm, hin⟩
  have hfresh₁ := h₁.fresh houts hupto
  rw [← hv] at hfresh₁
  obtain ⟨gs₂, hfollow⟩ := map_followed hin h₁.linked.wf hfresh₁ hmap
  cases hfollow with
  | refused hused =>
      refine ⟨done, m, rest, gs₁ ++ [], s'.alloc, rfl, ?_, ⟨h₁.mappable, h₁.laid.unmapped, hphys,
        v, hv, Or.inl ⟨?_, Or.inr ?_⟩⟩, h₁.stopped (Created.refl _ h₁.linked.wf) (Or.inl rfl)⟩
      · rw [List.append_nil]
        exact h₁.linked.granted
      · rw [List.append_nil, h₁.length]
      · rwa [← h₁.leaf_kept hin]
        intro d hd
        rw [VirtAddr.page, hv]
        exact page_ne_of_nodup hnodup d hd
  | @stopped _ _ _ a₁ _ hlt hcreated hex =>
      rw [hv] at hlt hcreated
      refine ⟨done, m, rest, gs₁ ++ gs₂, a₁, rfl,
        granted_append.mpr ⟨_, h₁.linked.granted, hcreated.granted⟩,
        ⟨h₁.mappable, h₁.laid.unmapped, hphys, v, hv, Or.inr ⟨hin, ?_, ?_, _, hex⟩⟩,
        h₁.stopped hcreated (Or.inr hex)⟩
      · rw [List.length_append, h₁.length]
        exact Nat.le_add_right _ _
      · rw [addressesOf_snoc, tablesMissing_append h₁.linked h₁.reached houts,
          List.length_append, h₁.length]
        omega

/-- **A LOOP STOPS** where the tables before it say. -/
theorem mapPages_stops (flags : PageTableFlags) {a' : σ} (hwf : TreeWF pt root s.mem)
    (hnodup : ((done ++ m :: rest).map fun m => m.2 / PAGE_SIZE).Nodup)
    (hfresh : FreshGrants pt.internalOffset
      (tablesMissing root s.mem (addressesOf (done ++ m :: rest))) (tables root s.mem) s.alloc)
    (hg : Granted pt.internalOffset gs s.alloc a')
    (hstop : StopsAt root s.mem done m gs.length (Exhausted a')) :
    ∃ e s', forEach (mapPage pt flags) (done ++ m :: rest) s = .ok (.error e, s')
      ∧ Stopped pt root flags done m gs s s' := by
  obtain ⟨hmappable, hunmapped, hphys, v, hv, hwhy⟩ := hstop
  have hupto := hfresh.mono (tablesMissing_upto s.mem done rest m)
  have hle : tablesMissing root s.mem (addressesOf done) ≤ gs.length := by
    rcases hwhy with ⟨heq, -⟩ | ⟨-, hle, -⟩
    · exact heq.ge
    · exact hle
  obtain ⟨g₁, g₂, a₁, rfl, hlen₁, hg₁, hg₂⟩ := hg.split hle
  obtain ⟨s₁, hdone, h₁, rfl⟩ := mapPages_granted flags hwf hmappable hunmapped
    (hnodup.sublist (by simp)) (hupto.mono (tablesMissing_mono (List.subset_append_left _ _)))
    hg₁ hlen₁
  -- it is enough that the page itself stops
  suffices hpage : ∃ e s' a', pt.map ⟨m.1, hphys⟩ v flags s₁ = .ok (.error e, s')
      ∧ Created pt root [m.2] g₂ s₁ ⟨s'.mem, a'⟩ ∧ (s'.alloc = a' ∨ Failed a' s'.alloc) by
    obtain ⟨e, s', a', hmap, hcreated, hleft⟩ := hpage
    refine ⟨e, s', ?_, h₁.stopped hcreated hleft⟩
    rw [forEach_append, hdone, andThen_ok, forEach_cons,
      mapPage_eq_ok.mpr ⟨⟨m.1, hphys⟩, v, rfl, hv, hmap⟩, andThen_err]
  by_cases hin : pageIndex 4 v = RECURSIVE
  · rcases hwhy with ⟨hlen, -⟩ | ⟨hout, -⟩
    · have hnil : g₂ = [] := by
        rw [List.length_append] at hlen
        exact List.length_eq_zero_iff.mp (by omega)
      rw [hnil]
      exact ⟨_, s₁, s₁.alloc, map_reserved hin, Created.refl _ h₁.linked.wf, Or.inl rfl⟩
    · exact absurd hin hout
  have houts : Outside [m.2] := fun a ha => ⟨v, hv.trans (List.mem_singleton.mp ha).symm, hin⟩
  have hfresh₁ := h₁.fresh houts hupto
  rw [addressesOf_snoc, tablesMissing_append h₁.linked h₁.reached houts, List.length_append,
    hlen₁] at hwhy
  have hleaf := h₁.leaf_kept hin fun d hd => by
    rw [VirtAddr.page, hv]
    exact page_ne_of_nodup hnodup d hd
  rw [← hv] at hfresh₁ hwhy ⊢
  rw [← hleaf] at hwhy
  rcases hwhy with ⟨hlen, hslot | hused⟩ | ⟨-, -, hlt, hex⟩
  · exact absurd hslot hin
  · -- the page is mapped
    have hzero := tablesMissing_mapped hin h₁.linked.wf hused
    cases List.length_eq_zero_iff.mp (show g₂.length = 0 by omega)
    obtain ⟨r, s', hmap⟩ := map_granted ⟨m.1, hphys⟩ flags hin h₁.linked.wf
      hfresh₁ hg₂ (Or.inl hzero.symm) fun _ hnone => absurd hnone hused
    obtain ⟨gs', hfollow⟩ := map_followed hin h₁.linked.wf hfresh₁ hmap
    cases hfollow with
    | refused _ =>
        exact ⟨_, s₁, s₁.alloc, hmap, Created.refl _ h₁.linked.wf, Or.inl rfl⟩
    | stopped hnone => exact absurd hnone hused
    | mapped hnone => exact absurd hnone hused
  · -- the allocator fails on the way to it
    obtain ⟨r, s', hmap⟩ := map_granted ⟨m.1, hphys⟩ flags hin h₁.linked.wf
      hfresh₁ hg₂ (Or.inr ⟨by omega, hex⟩) fun heq => by omega
    obtain ⟨gs', hfollow⟩ := map_followed hin h₁.linked.wf hfresh₁ hmap
    cases hfollow with
    | refused hused =>
        have := tablesMissing_mapped hin h₁.linked.wf hused
        omega
    | @stopped _ _ _ a₂ _ hlt' hcreated hex' =>
        have hlen : g₂.length = gs'.length := by
          rcases Nat.lt_trichotomy g₂.length gs'.length with hl | heq | hl
          · exact absurd hex (hcreated.granted.not_exhausted hg₂ hl)
          · exact heq
          · exact absurd ⟨_, hex'⟩ (hg₂.not_exhausted hcreated.granted hl)
        obtain ⟨rfl, -⟩ := hg₂.unique hcreated.granted hlen
        exact ⟨_, s', a₂, hmap, hcreated, Or.inr hex'⟩
    | mapped _ _ hlen hcreated =>
        exact absurd hex (hcreated.granted.not_exhausted hg₂ (by omega))

end Pages

/-! ## What an error changes -/

section Unchanged

variable {pt : RecursivePageTable} {root : PhysAddr}

/-- Entry `i` of the table at a path has an address through the recursive slot. -/
theorem exists_slot_view {q : List (Fin 512)} (hq : q.length ≤ 3) (i : Fin 512) :
    ∃ v : VirtAddr, tablePath v = List.replicate (3 - q.length) RECURSIVE ++ q
      ∧ pageIndex 1 v = i := by
  match q, hq with
  | [], _ => exact exists_address RECURSIVE RECURSIVE RECURSIVE i
  | [a], _ => exact exists_address RECURSIVE RECURSIVE a i
  | [a, b], _ => exact exists_address RECURSIVE a b i
  | [a, b, c], _ => exact exists_address a b c i

/-- Through the slot a walk does what it does without. -/
theorem walk_slot_view {mem : PhysMem} (hwf : TreeWF pt root mem) (k : Nat)
    (q : List (Fin 512)) :
    walk child mem root.addr (List.replicate k RECURSIVE ++ q) = walk child mem root.addr q := by
  rw [walk_append, walk_slot hwf]
  rfl

/-- An entry that came into use shows through the slot. -/
theorem translate_slot_changes {mem mem' : PhysMem} (hwf : TreeWF pt root mem)
    (hwf' : TreeWF pt root mem') {q : List (Fin 512)} (hq : q.length ≤ 3) {i : Fin 512} {n : Nat}
    (hn : walk child mem root.addr q = some n) (hn' : walk child mem' root.addr q = some n)
    (hunused : (mem n i).isUnused = true) (hused : (mem' n i).isUnused = false) :
    ∃ v, pt.translate mem' v ≠ pt.translate mem v := by
  obtain ⟨v, hv, rfl⟩ := exists_slot_view hq i
  refine ⟨v, fun hsame => ?_⟩
  have hafter := (translate_walk hwf' v _).mpr
    ⟨n, by rw [hv, walk_slot_view hwf', hn'], hused, rfl⟩
  rw [hsame] at hafter
  obtain ⟨m, hm, hm', -⟩ := (translate_walk hwf v _).mp hafter
  rw [hv, walk_slot_view hwf, hn] at hm
  cases hm
  rw [hunused] at hm'
  cases hm'

/-- A path that has become present has a first step that was missing. -/
theorem first_missing {mem mem' : PhysMem}
    (hmono : ∀ p ∈ tablePaths, ∀ m, walk child mem root.addr p = some m →
      walk child mem' root.addr p = some m) {p : List (Fin 512)} :
    p ∈ tablePaths → ¬ Present root mem p → Present root mem' p →
    ∃ q i n, q ++ [i] ∈ tablePaths ∧ walk child mem root.addr q = some n
      ∧ walk child mem' root.addr q = some n ∧ child (mem n i) = none
      ∧ child (mem' n i) ≠ none := by
  induction p using List.reverseRecOn with
  | nil =>
      intro _ hmissing _
      exact absurd ⟨root.addr, rfl⟩ hmissing
  | append_singleton q i ih =>
      intro hp hmissing hpresent
      have hq := prefixClosed_tablePaths q i hp
      by_cases hthere : Present root mem q
      · obtain ⟨n, hn⟩ := hthere
        have hn' := hmono q hq n hn
        refine ⟨q, i, n, hp, hn, hn', ?_, ?_⟩
        · rwa [not_present_iff, walk_snoc, hn] at hmissing
        · obtain ⟨m, hm⟩ := hpresent
          rw [walk_snoc, hn'] at hm
          rw [show child (mem' n i) = some m from hm]
          exact nofun
      · obtain ⟨m, hm⟩ := hpresent
        exact ih hq hthere ( walk_prefix hm)

variable {σ : Type} [FrameAllocator σ] {s s' : PagingState σ} {as : List Nat}
  {gs : List PhysAddr} {flags : PageTableFlags} {done : List (Nat × Nat)} {m : Nat × Nat}

/-- A new table shows through the slot. -/
theorem linked_changes (h : Linked pt root as gs s s') (hwf : TreeWF pt root s.mem)
    (hne : gs ≠ []) : ∃ v, pt.translate s'.mem v ≠ pt.translate s.mem v := by
  obtain ⟨g, hg⟩ := List.exists_mem_of_ne_nil gs hne
  obtain ⟨p, hp, hw⟩ : g.addr ∈ tables root s'.mem := by
    rw [h.tables_eq]
    exact Or.inr ⟨g, hg, rfl⟩
  have hmissing : ¬ Present root s.mem p := by
    rintro ⟨m, hm⟩
    cases hw.symm.trans (h.walks p hp m hm)
    exact h.fresh g hg ⟨p, hp, hm⟩
  obtain ⟨q, i, n, hqi, hn, hn', hnone, hsome⟩ := first_missing h.walks hp hmissing ⟨_, hw⟩
  have hlen := hqi.1
  rw [List.length_append, List.length_singleton] at hlen
  refine translate_slot_changes hwf h.wf (by omega) (i := i) hn hn' ?_ ?_
  · by_contra hu
    rw [child_of_used (Bool.eq_false_iff.mpr hu)] at hnone
    cases hnone
  · by_contra hu
    exact hsome (child_of_unused (Bool.not_eq_false _ ▸ hu))

/-- **AN ERROR CHANGES NO TRANSLATION** if and only if nothing had been linked and
    every page mapped before had got the empty entry. -/
theorem Stopped.unchanged_iff (h : Stopped pt root flags done m gs s s')
    (hwf : TreeWF pt root s.mem) (hmap : ∀ d ∈ done, Mappable d) :
    (∀ v, pt.translate s'.mem v = pt.translate s.mem v)
      ↔ gs = [] ∧ ∀ d ∈ done, (entryAt d.1 flags).isUnused = true := by
  obtain ⟨a', hlinked, -⟩ := h.linked
  constructor
  · intro hsame
    constructor
    · by_contra hne
      obtain ⟨v, hv⟩ := linked_changes hlinked hwf hne
      exact hv (hsame v)
    · intro d hd
      by_contra hused
      obtain ⟨v, hv, hout⟩ := (hmap d hd).virt
      have hmem : (d.2 / PAGE_SIZE, entryAt d.1 flags) ∈ leavesOf flags done :=
        List.mem_map_of_mem hd
      have hpage : d.2 / PAGE_SIZE = v.page := by rw [← hv]; rfl
      have hbefore := (translate_eq_none hout hwf).mpr (h.laid.absent v hout _ hmem hpage)
      rw [← hsame v, translate_eq_none hout hlinked.wf,
        h.laid.here v hout _ hmem hpage (Bool.eq_false_iff.mpr hused)] at hbefore
      cases hbefore
  · rintro ⟨hnil, hunused⟩ v
    rw [h.quiet hnil hunused]

end Unchanged

/-! ## `map_contiguous` -/

section Contiguous

variable {σ : Type} [FrameAllocator σ] {pt : RecursivePageTable} {root : PhysAddr}
  {flags : PageTableFlags} {s s' : PagingState σ} {p : PhysAddr} {a : VirtAddr} {n : Nat}

/-- The page with number `i` of a contiguous request. -/
def pageAt (phys virt i : Nat) : Nat × Nat := (phys + i * PAGE_SIZE, virt + i * PAGE_SIZE)

theorem pagesFrom_split (phys virt : Nat) {i : Nat} (hi : i < n) :
    ∃ rest, pagesFrom phys virt n = pagesFrom phys virt i ++ pageAt phys virt i :: rest := by
  refine ⟨(List.range' (i + 1) (n - (i + 1))).map (pageAt phys virt), ?_⟩
  have hrange : List.range n = List.range i ++ i :: List.range' (i + 1) (n - (i + 1)) := by
    have happend : List.range' 0 i ++ List.range' (0 + i) (n - (i + 1) + 1)
        = List.range' 0 (i + (n - (i + 1) + 1)) := List.range'_append_1
    rw [List.range_eq_range', List.range_eq_range', ← List.range'_succ]
    rwa [Nat.zero_add, show i + (n - (i + 1) + 1) = n by omega, eq_comm] at happend
  rw [pagesFrom, hrange, List.map_append, List.map_cons]
  rfl

/-- **`map_contiguous` STOPPED** where the tables before it say. -/
theorem mapContiguous_err {e : PagingError} (hwf : TreeWF pt root s.mem)
    (hfresh : FreshGrants pt.internalOffset
      (tablesMissing root s.mem (addressesOf (pagesFrom p.addr a.addr n)))
      (tables root s.mem) s.alloc)
    (h : pt.mapContiguous n p a flags s = .ok (.error e, s')) :
    n * PAGE_SIZE < 2 ^ 64 ∧ ∃ i < n, ∃ gs a', Granted pt.internalOffset gs s.alloc a'
      ∧ StopsAt root s.mem (pagesFrom p.addr a.addr i) (pageAt p.addr a.addr i) gs.length
        (Exhausted a')
      ∧ Stopped pt root flags (pagesFrom p.addr a.addr i) (pageAt p.addr a.addr i) gs s s' := by
  rw [mapContiguous_eq] at h
  split at h
  · next hsize =>
      obtain ⟨done, x, rest, gs, a', hsplit, hg, hstop, hstopped⟩ :=
        mapPages_err hwf (nodup_pagesFrom _ _ _) hfresh h
      obtain ⟨hlt, hdone, hx⟩ := range_map_split hsplit
      have hdone' : done = pagesFrom p.addr a.addr done.length := hdone
      have hx' : x = pageAt p.addr a.addr done.length := hx
      rw [hx', hdone', pagesFrom_length] at hstop hstopped
      exact ⟨hsize, done.length, hlt, gs, a', hg, hstop, hstopped⟩
  · cases h

/-- **`map_contiguous` STOPS** where the tables before it say. -/
theorem mapContiguous_err_of (flags : PageTableFlags) {i : Nat} {gs : List PhysAddr} {a' : σ}
    (hwf : TreeWF pt root s.mem)
    (hfresh : FreshGrants pt.internalOffset
      (tablesMissing root s.mem (addressesOf (pagesFrom p.addr a.addr n)))
      (tables root s.mem) s.alloc)
    (hsize : n * PAGE_SIZE < 2 ^ 64) (hi : i < n) (hg : Granted pt.internalOffset gs s.alloc a')
    (hstop : StopsAt root s.mem (pagesFrom p.addr a.addr i) (pageAt p.addr a.addr i) gs.length
      (Exhausted a')) :
    ∃ e s', pt.mapContiguous n p a flags s = .ok (.error e, s')
      ∧ Stopped pt root flags (pagesFrom p.addr a.addr i) (pageAt p.addr a.addr i) gs s s' := by
  obtain ⟨rest, hsplit⟩ := pagesFrom_split p.addr a.addr hi
  have hnodup := nodup_pagesFrom p.addr a.addr n
  rw [mapContiguous_eq, if_pos hsize]
  rw [hsplit] at hfresh hnodup ⊢
  exact mapPages_stops flags hwf hnodup hfresh hg hstop

end Contiguous

end KermolMapFailure
