import Kermol.PageTableRunProofs

/-! # Every table frame is accounted for

    A run may be cut short at any allocation, so `map` can leave branches with
    one or two of the three missing tables behind.  No frame is lost that way:
    the tables reached from the level-4 table are the frames that the page
    table obtained, and every table but the first hangs under one entry.

    `Logged` instruments an allocator with the list of frames it has handed
    out.  The page table only uses the `FrameAllocator` interface, so the
    operations run on it as they are. -/

namespace KermolTableFrames

open RustEffect X86Paging KermolFrameAllocator KermolPageTable KermolPageTree
open KermolMapStep KermolPageTableRun RadixTree

/-! ## A recording allocator -/

/-- An allocator and the frames handed out so far, oldest first. -/
structure Logged (σ : Type) where
  inner : σ
  log : List PhysAddr

variable {σ : Type}

/-- Perform an operation of the allocator inside and append what it handed
    out. -/
def Logged.record {α : Type} (log : List PhysAddr) (out : α → List PhysAddr) :
    Fallible MemoryError σ α → Fallible MemoryError (Logged σ) α
  | .error p => .error p
  | .ok (.error e, i) => .ok (.error e, ⟨i, log⟩)
  | .ok (.ok a, i) => .ok (.ok a, ⟨i, log ++ out a⟩)

instance [FrameAllocator σ] : FrameAllocator (Logged σ) where
  alloc := fun a => Logged.record a.log (fun f => [f]) (FrameAllocator.alloc a.inner)
  allocContiguous := fun a pages =>
    Logged.record a.log (fun f => [f]) (FrameAllocator.allocContiguous a.inner pages)
  free := fun a f =>
    Logged.record a.log (fun _ => []) (FrameAllocator.free a.inner f)
  freeContiguous := fun a f pages =>
    Logged.record a.log (fun _ => []) (FrameAllocator.freeContiguous a.inner f pages)

/-- The frames an answer adds to the log. -/
def handedOut : Except MemoryError PhysAddr → List PhysAddr
  | .error _ => []
  | .ok f => [f]

section Record

variable [FrameAllocator σ]

/-- Recording changes no answer. -/
theorem alloc_logged {a a' : Logged σ} {r : Except MemoryError PhysAddr} :
    FrameAllocator.alloc a = .ok (r, a')
      ↔ FrameAllocator.alloc a.inner = .ok (r, a'.inner)
        ∧ a'.log = a.log ++ handedOut r := by
  obtain ⟨i', log'⟩ := a'
  show Logged.record a.log _ (FrameAllocator.alloc a.inner) = _ ↔ _
  rcases hx : FrameAllocator.alloc a.inner with p | ⟨_ | f, i⟩
  · exact ⟨fun h => (by cases h), fun h => (by cases h.1)⟩
  · constructor
    · intro h
      cases h
      exact ⟨rfl, (List.append_nil _).symm⟩
    · rintro ⟨h, hlog⟩
      cases h
      rw [handedOut, List.append_nil] at hlog
      cases hlog
      rfl
  · constructor
    · intro h
      cases h
      exact ⟨rfl, rfl⟩
    · rintro ⟨h, hlog⟩
      cases h
      cases hlog
      rfl

theorem fresh_logged : ∀ {k : Nat} {used : Set Nat} {a : Logged σ},
    Fresh k used a.inner → Fresh k used a := by
  intro k
  induction k with
  | zero => intro used a _; trivial
  | succ k ih =>
      intro used a h r a' hr
      have hr' := h r a'.inner (alloc_logged.mp hr).1
      cases r with
      | error e => exact ih hr'
      | ok f => exact ⟨hr'.1, ih hr'.2⟩

theorem live_logged {offset : Nat} : ∀ {k : Nat} {a : Logged σ},
    Live offset k a.inner → Live offset k a := by
  intro k
  induction k with
  | zero => intro a _; trivial
  | succ k ih =>
      rintro a ⟨r, i', hr, hl, hf⟩
      exact ⟨r, ⟨i', a.log ++ handedOut r⟩, alloc_logged.mpr ⟨hr, rfl⟩, ih hl, hf⟩

theorem neverFails_logged : ∀ {k : Nat} {a : Logged σ},
    NeverFails k a.inner → NeverFails k a := by
  intro k
  induction k with
  | zero => intro a _; trivial
  | succ k ih =>
      rintro a ⟨f, i', hr, hn⟩
      exact ⟨f, ⟨i', a.log ++ [f]⟩, alloc_logged.mpr ⟨hr, rfl⟩, ih hn⟩

end Record

/-! ## The tables are the frames obtained -/

/-- The tables reached from the level-4 table are the frames in the log. -/
def Accounted (root : PhysAddr) (s : PagingState (Logged σ)) : Prop :=
  tables root s.mem = {n | ∃ f ∈ s.alloc.log, f.addr = n}

variable {pt : RecursivePageTable} {root : PhysAddr} {v : VirtAddr}
  {s s' : PagingState (Logged σ)}

theorem leaf_accounted (hwf : TreeWF pt root s.mem) (hacc : Accounted root s)
    {t : Nat} (hv : pageIndex 4 v ≠ RECURSIVE)
    (ht : walk child s.mem root.addr (tablePath v) = some t) (e : PageTableEntry) :
    Accounted root ⟨setEntry s.mem t (pageIndex 1 v) e, s.alloc⟩ := by
  unfold Accounted
  rw [tables_leaf hwf hv ht e]
  exact hacc

variable [FrameAllocator σ]

/-- A frame taken is a table linked; a failed call takes none. -/
theorem linkStep_accounted (hv : pageIndex 4 v ≠ RECURSIVE)
    (hwf : TreeWF pt root s.mem) (hacc : Accounted root s)
    (h : LinkStep pt root v s s') : Accounted root s' := by
  unfold Accounted at *
  cases h with
  | @fail e a' _ ha =>
      rw [(alloc_logged.mp ha).2, handedOut, List.append_nil]
      exact hacc
  | @link p q i n f a' hp hn hi ha hal hcan hfr =>
      have hl := linkable hv hp hn hi hal hfr
      rw [(alloc_logged.mp ha).2, tables,
        reached_link prefixClosed_tablePaths hwf.unshared hl]
      show insert f.addr (tables root s.mem) = _
      rw [hacc]
      ext n
      simp only [Set.mem_insert_iff, Set.mem_ofPred_eq, handedOut, List.mem_append,
        List.mem_singleton]
      constructor
      · rintro (rfl | ⟨g, hg, rfl⟩)
        · exact ⟨f, Or.inr rfl, rfl⟩
        · exact ⟨g, Or.inl hg, rfl⟩
      · rintro ⟨g, hg | rfl, rfl⟩
        · exact Or.inr ⟨g, hg, rfl⟩
        · exact Or.inl rfl

theorem links_accounted (hv : pageIndex 4 v ≠ RECURSIVE) {n : Nat}
    (h : Links pt root v n s s') :
    TreeWF pt root s.mem → Accounted root s → Accounted root s' := by
  induction h with
  | refl s => exact fun _ hacc => hacc
  | step hstep _ ih =>
      intro hwf hacc
      exact ih (linkStep_preserved hv hwf hstep).wf
        (linkStep_accounted hv hwf hacc hstep)

/-- **STEP.**  Whatever an operation returns, no frame is lost. -/
theorem step_accounted {op : Op} {r : Except PagingError Unit} (hop : op.Outside)
    (hwf : TreeWF pt root s.mem) (hfresh : Fresh 3 (tables root s.mem) s.alloc)
    (hacc : Accounted root s) (h : step pt op s = .ok (r, s')) :
    Accounted root s' := by
  cases op with
  | map from_ to_ flags =>
      cases map_cases hop hwf hfresh h with
      | alreadyMapped _ => exact hacc
      | allocFailed _ hlinks _ _ => exact links_accounted hop hlinks hwf hacc
      | mapped _ hlinks _ _ ht =>
          exact leaf_accounted (links_preserved hop hlinks hwf).wf
            (links_accounted hop hlinks hwf hacc) hop ht _
  | unmap v =>
      rcases unmap_cases hop hwf with ⟨_, heq⟩ | ⟨t, ht, _, heq⟩
      · cases heq.symm.trans h
        exact hacc
      · cases heq.symm.trans h
        exact leaf_accounted hwf hacc hop ht _
  | updateFlags v flags =>
      rcases updateFlags_cases flags hop hwf with ⟨_, heq⟩ | ⟨t, ht, _, heq⟩
      · cases heq.symm.trans h
        exact hacc
      · cases heq.symm.trans h
        exact leaf_accounted hwf hacc hop ht _

/-- **RUN.**  After any run the tables are the frames obtained. -/
theorem run_accounted {ops : List Op} :
    ∀ {s s' : PagingState (Logged σ)} {rs : List (Except PagingError Unit)},
      (∀ op ∈ ops, op.Outside) → TreeWF pt root s.mem →
      Fresh (3 * ops.length) (tables root s.mem) s.alloc → Accounted root s →
      run pt ops s = .ok (rs, s') → Accounted root s' := by
  induction ops with
  | nil =>
      intro s s' rs _ _ _ hacc h
      cases h
      exact hacc
  | cons op ops ih =>
      intro s s' rs hops hwf hfresh hacc h
      obtain ⟨r, s₁, rs', h₁, h₂, -⟩ := run_cons.mp h
      rw [List.length_cons] at hfresh
      have hop := hops op List.mem_cons_self
      have hfresh₃ := fresh_mono hfresh (j := 3) (by omega)
      have hk := step_kept hop hwf hfresh₃ h₁
      exact ih (fun o ho => hops o (List.mem_cons_of_mem op ho)) hk.wf
        (hk.fresh _ (fresh_mono hfresh (by omega)))
        (step_accounted hop hwf hfresh₃ hacc h₁) h₂

/-! ## One entry for each table -/

/-- Entry `i` of table `t`, a table of level `level`, names table `n`; the
    recursive slot is left out. -/
structure NamedBy (root : PhysAddr) (mem : PhysMem) (n t level : Nat) (i : Fin 512) :
    Prop where
  level_pos : 2 ≤ level
  level_le : level ≤ 4
  table : ∃ p, p ++ [i] ∈ tablePaths ∧ p.length + level = 4
    ∧ walk child mem root.addr p = some t
  entry : child (mem t i) = some n

/-- **ONE PARENT.**  In a well-formed tree every table but the first is named
    by one entry of one table at one level. -/
theorem namedBy_unique {mem : PhysMem} (hwf : TreeWF pt root mem) {n : Nat}
    (hn : n ∈ tables root mem) (hne : n ≠ root.addr) :
    ∃! x : Nat × Nat × Fin 512, NamedBy root mem n x.1 x.2.1 x.2.2 := by
  obtain ⟨q, hq, hw⟩ := hn
  rcases List.eq_nil_or_concat' q with rfl | ⟨p, i, rfl⟩
  · exact absurd (Option.some.inj hw).symm hne
  · rw [walk_snoc] at hw
    obtain ⟨t, ht, hc⟩ := Option.bind_eq_some_iff.mp hw
    have hlen : p.length ≤ 2 := by
      have := hq.1
      rw [List.length_append, List.length_singleton] at this
      omega
    refine ⟨(t, 4 - p.length, i), ⟨?_, ?_, ⟨p, hq, ?_, ht⟩, hc⟩, ?_⟩
    · show 2 ≤ 4 - p.length
      omega
    · show 4 - p.length ≤ 4
      omega
    · show p.length + (4 - p.length) = 4
      omega
    -- another parent is another path to the same table
    · rintro ⟨t', level, j⟩ ⟨h2, h4, ⟨p', hp', hl, ht'⟩, hc'⟩
      dsimp only at h2 h4 hp' hl ht' hc'
      have hw' : walk child mem root.addr (p' ++ [j]) = some n := by
        rw [walk_snoc, ht']
        exact hc'
      have hpath : p' ++ [j] = p ++ [i] :=
        hwf.unshared _ _ n hp' hq hw' (by rw [walk_snoc, ht]; exact hc)
      obtain ⟨rfl, hj⟩ := List.append_inj' hpath rfl
      have hji : j = i := by simpa using hj
      have htt : t' = t := Option.some.inj (ht'.symm.trans ht)
      have hlv : level = 4 - p'.length := by omega
      rw [hji, htt, hlv]

/-! ## Mapping a page again -/

/-- While the level-1 table of a page exists, `map` takes no frame. -/
theorem map_no_frame {from_ : PhysAddr} {flags : PageTableFlags} {t : Nat}
    {r : Except PagingError Unit} (hv : pageIndex 4 v ≠ RECURSIVE)
    (hwf : TreeWF pt root s.mem) (hfresh : Fresh 3 (tables root s.mem) s.alloc)
    (ht : walk child s.mem root.addr (tablePath v) = some t)
    (h : pt.map from_ v flags s = .ok (r, s')) : s'.alloc = s.alloc := by
  have hzero {n : Nat} {s₁ : PagingState (Logged σ)} (hl : Links pt root v n s s₁) :
      n = 0 := by
    by_contra hn
    have := links_missing hl (by omega)
    rw [ht] at this
    cases this
  cases map_cases hv hwf hfresh h with
  | alreadyMapped _ => rfl
  | allocFailed _ hlinks _ hpos => exact absurd (hzero hlinks) (by omega)
  | mapped _ hlinks _ _ _ =>
      have hn := hzero hlinks
      subst hn
      cases hlinks
      rfl

/-- A page that `unmap` released has its level-1 table, and every later state
    of the run still has it. -/
theorem walk_after_unmap {ops₁ ops₂ : List Op} {rs : List (Except PagingError Unit)}
    (hops : ∀ op ∈ ops₁ ++ .unmap v :: ops₂, op.Outside)
    (hwf : TreeWF pt root s.mem)
    (hfresh : Fresh (3 * (ops₁ ++ .unmap v :: ops₂).length) (tables root s.mem) s.alloc)
    (h : run pt (ops₁ ++ .unmap v :: ops₂) s = .ok (rs, s'))
    (hok : rs[ops₁.length]? = some (.ok ())) :
    ∃ t, walk child s'.mem root.addr (tablePath v) = some t := by
  obtain ⟨rs₁, s₁, rs₂, h₁, h₂, rfl, hlen⟩ := run_append h
  obtain ⟨r, s₂, rs₃, hun, h₃, rfl⟩ := run_cons.mp h₂
  rw [List.getElem?_append_right (by omega), hlen, Nat.sub_self,
    List.getElem?_cons_zero] at hok
  have hr : r = .ok () := Option.some.inj hok
  have hv : pageIndex 4 v ≠ RECURSIVE := hops (.unmap v) (by simp)
  rw [List.length_append, List.length_cons] at hfresh
  have hk₁ := run_kept (fun o ho => hops o (List.mem_append_left _ ho)) hwf
    (fresh_mono hfresh (by omega)) h₁
  have hfresh₁ := hk₁.fresh (3 * (ops₂.length + 1)) (fresh_mono hfresh (by omega))
  obtain ⟨t, ht⟩ : ∃ t, walk child s₁.mem root.addr (tablePath v) = some t := by
    rcases unmap_cases hv hk₁.wf with ⟨_, heq⟩ | ⟨t, ht, _, _⟩
    · cases heq.symm.trans hun
      cases hr
    · exact ⟨t, ht⟩
  have hk₂ := run_kept (fun o ho => hops o (List.mem_append_right _ ho)) hk₁.wf
    hfresh₁ h₂
  exact ⟨t, hk₂.walks _ (tablePath_mem hv) t ht⟩

/-- **NO LEAK, NO SHARING.**  From `new`, with an allocator that never hands
    out a frame twice but may fail at any call, every run outside the recursive
    slot returns; then the tables reached are the frames obtained, every table
    but the first has one parent entry, and a page that was unmapped during the
    run is mapped again without taking a frame. -/
theorem tableFrames_accounted (hhdm : HhdmResponse) (s : PagingState (Logged σ))
    (ops : List Op) (hlog : s.alloc.log = [])
    (hops : ∀ op ∈ ops, op.Outside ∧ op.Aligned)
    (hfresh : Fresh (3 * (ops.length + 1) + 1) ∅ s.alloc.inner)
    (hlive : Live hhdm.offset.addr (3 * (ops.length + 1) + 1) s.alloc.inner)
    {pt : RecursivePageTable} {s₀ : PagingState (Logged σ)}
    (hnew : RecursivePageTable.new hhdm s = .ok (pt, s₀)) :
    ∃ root pt' rs s', s₀.alloc.log = [root] ∧ pt.load = .ok (pt', root)
      ∧ run pt ops s₀ = .ok (rs, s')
      ∧ tables root s'.mem = {n | ∃ f ∈ s'.alloc.log, f.addr = n}
      ∧ (∀ n ∈ tables root s'.mem, n ≠ root.addr →
          ∃! x : Nat × Nat × Fin 512, NamedBy root s'.mem n x.1 x.2.1 x.2.2)
      ∧ ∀ ops₁ ops₂ v, ops = ops₁ ++ .unmap v :: ops₂ →
          rs[ops₁.length]? = some (.ok ()) →
          ∀ (from_ : PhysAddr) (flags : PageTableFlags), from_.addr % PAGE_SIZE = 0 →
            ∃ r s'', pt.map from_ v flags s' = .ok (r, s'') ∧ s''.alloc = s'.alloc := by
  obtain ⟨root, halloc, hoff, hwf, hmem⟩ := new_cases hnew
  have hlog₀ : s₀.alloc.log = [root] := by
    rw [(alloc_logged.mp halloc).2, hlog]
    rfl
  have hfresh₀ := fresh_new halloc hmem (fresh_logged hfresh)
  have hlive₀ : Live pt.internalOffset (3 * (ops.length + 1)) s₀.alloc :=
    hoff ▸ live_new halloc (live_logged hlive)
  have hacc : Accounted root s₀ := by
    unfold Accounted
    rw [hmem, tables_newMem, hlog₀]
    ext n
    simp [eq_comm]
  have hout : ∀ op ∈ ops, op.Outside := fun op hop => (hops op hop).1
  obtain ⟨rs, s', hrun⟩ := run_total hops hwf (fresh_mono hfresh₀ (by omega))
    (live_mono hlive₀ (by omega))
  have hk := run_kept hout hwf (fresh_mono hfresh₀ (by omega)) hrun
  have hfresh' := hk.fresh 3 (fresh_mono hfresh₀ (by omega))
  have hlive' := hk.live 3 (live_mono hlive₀ (by omega))
  refine ⟨root, _, rs, s', hlog₀, load_eq hwf, hrun, ?_, ?_, ?_⟩
  · exact run_accounted hout hwf (fresh_mono hfresh₀ (by omega)) hacc hrun
  · exact fun n hn hne => namedBy_unique hk.wf hn hne
  · rintro ops₁ ops₂ v rfl hok from_ flags hal
    -- `unmap` found the level-1 table, and no later step takes a table away
    have hv : pageIndex 4 v ≠ RECURSIVE := hout (.unmap v) (by simp)
    obtain ⟨t, ht⟩ := walk_after_unmap hout hwf (fresh_mono hfresh₀ (by omega)) hrun hok
    obtain ⟨r, s'', hmap, -⟩ : ∃ r s'', pt.map from_ v flags s' = .ok (r, s'') ∧ _ :=
      map_total hv hk.wf hfresh' hlive' hal
    exact ⟨r, s'', hmap, map_no_frame hv hk.wf hfresh' ht hmap⟩

/-- The boot state under a recording allocator. -/
def sampleLogged : PagingState (Logged LinearFrameAllocator) :=
  ⟨sampleState.mem, ⟨sampleState.alloc, []⟩⟩

/-- Map a page, unmap it, and map a page under another level-4 entry. -/
def sampleOps : List Op :=
  [.map sampleFrame samplePage flagsRw, .unmap samplePage,
    .map sampleFrame ⟨0x400000, by decide⟩ flagsRx]

theorem tableFrames_accounted_sample :
    ∃ pt s₀ root pt' rs s',
      RecursivePageTable.new sampleHhdm sampleLogged = .ok (pt, s₀)
      ∧ s₀.alloc.log = [root] ∧ pt.load = .ok (pt', root)
      ∧ run pt sampleOps s₀ = .ok (rs, s')
      ∧ tables root s'.mem = {n | ∃ f ∈ s'.alloc.log, f.addr = n}
      ∧ (∀ n ∈ tables root s'.mem, n ≠ root.addr →
          ∃! x : Nat × Nat × Fin 512, NamedBy root s'.mem n x.1 x.2.1 x.2.2) := by
  obtain ⟨hfresh, hlive, hnf⟩ :=
    sampleState_contract (k := 3 * (sampleOps.length + 1) + 1) (by decide)
  obtain ⟨pt, s₀, hnew⟩ := new_total (s := sampleLogged)
    (live_logged (live_mono hlive (by omega)))
    (neverFails_logged (neverFails_mono hnf (by omega)))
  obtain ⟨root, pt', rs, s', hlog, hload, hrun, htables, hparent, -⟩ :=
    tableFrames_accounted sampleHhdm sampleLogged sampleOps rfl (by decide) hfresh
      hlive hnew
  exact ⟨pt, s₀, root, pt', rs, s', hnew, hlog, hload, hrun, htables, hparent⟩

end KermolTableFrames
