import Kermol.PageTreeProofs

/-! # One lemma for each operation

    `map_cases`, `unmap_cases` and `updateFlags_cases` invert the three
    operations on a well-formed table: each says every result the operation can
    return, with the state it leaves.  `map_total` adds that `map` returns.
    Every invariant and every refinement result is derived from these. -/

namespace KermolMapStep

open RustEffect X86Paging KermolFrameAllocator KermolPageTable KermolPageTree RadixTree

variable {pt : RecursivePageTable} {root : PhysAddr}

section Create

variable {σ : Type} {to_ : VirtAddr}

/-- The table just linked, seen from the path that leads to it. -/
theorem walk_linkState {s : PagingState σ} (hwf : TreeWF pt root s.mem)
    (hto : pageIndex 4 to_ ≠ RECURSIVE) {p q : List (Fin 512)} {i : Fin 512} {n : Nat}
    {f : PhysAddr} (a' : σ) (hp : tablePath to_ = p ++ i :: q)
    (hn : walk child s.mem root.addr p = some n) (hi : s.mem n i = PageTableEntry.new)
    (hal : f.addr % PAGE_SIZE = 0) (hfr : f.addr ∉ tables root s.mem) :
    walk child (linkState s n i f a').mem root.addr (p ++ [i]) = some f.addr := by
  have hl := linkable hto hp hn hi hal hfr
  have hw := walk_link prefixClosed_tablePaths hwf.unshared hl hl.path
  rwa [if_pos rfl] at hw

/-- A table is emptied before it is linked. -/
theorem linkState_empty (s : PagingState σ) (n : Nat) (i : Fin 512) (f : PhysAddr) (a' : σ)
    (j : Fin 512) : (linkState s n i f a').mem f.addr j = PageTableEntry.new := by
  show RadixTree.link s.mem n i _ f.addr _ f.addr j = _
  rw [RadixTree.link, clear_same]

variable [FrameAllocator σ]

/-- One level of the creation loop, seen from the table it has linked: the path
    has moved down by one index, and every entry there is unused. -/
structure Descended (pt : RecursivePageTable) (root : PhysAddr) (to_ : VirtAddr)
    (p : List (Fin 512)) (s s' : PagingState σ) (next : VirtAddr) : Prop where
  step : LinkStep pt root to_ s s'
  found : walk child s'.mem root.addr p = some (pt.frameOf next)
  empty : ∀ j, s'.mem (pt.frameOf next) j = PageTableEntry.new

theorem descend {s : PagingState σ} (hwf : TreeWF pt root s.mem)
    (hto : pageIndex 4 to_ ≠ RECURSIVE) {p q : List (Fin 512)} {i : Fin 512} {n : Nat}
    {f : PhysAddr} {a' : σ} {next : VirtAddr} (hp : tablePath to_ = p ++ i :: q)
    (hn : walk child s.mem root.addr p = some n) (hi : s.mem n i = PageTableEntry.new)
    (ha : FrameAllocator.alloc s.alloc = .ok (.ok f, a')) (hal : f.addr % PAGE_SIZE = 0)
    (hnext : next.addr = f.addr + pt.internalOffset) (hfr : f.addr ∉ tables root s.mem) :
    Descended pt root to_ (p ++ [i]) s (linkState s n i f a') next := by
  have hcan : IsCanonical (f.addr + pt.internalOffset) := hnext ▸ next.canonical
  have hframe : pt.frameOf next = f.addr := by
    unfold RecursivePageTable.frameOf
    omega
  refine ⟨LinkStep.link hp hn hi ha hal hcan hfr, ?_, fun j => ?_⟩
  · rw [hframe]
    exact walk_linkState hwf hto a' hp hn hi hal hfr
  · rw [hframe]
    exact linkState_empty s _ _ f a' j

/-- The path to `to_`, one index further. -/
theorem path_down {p q : List (Fin 512)} {i : Fin 512} (hp : tablePath to_ = p ++ i :: q) :
    tablePath to_ = (p ++ [i]) ++ q := by
  rw [hp, List.append_assoc, List.singleton_append]

/-- **CREATION, INVERTED.**  When the creation loop returns, it took one frame
    for each level it completed and linked it on the way to `to_`; on success
    the level-1 table exists, and if it is new it is empty. -/
theorem createLevels_cases (hto : pageIndex 4 to_ ≠ RECURSIVE) {levels : List Nat}
    (hlv : ∀ l ∈ levels, 1 ≤ l ∧ l ≤ 4) :
    ∀ {p : List (Fin 512)} {current : VirtAddr} {s s' : PagingState σ}
      {r : Except PagingError VirtAddr},
      TreeWF pt root s.mem → Fresh levels.length (tables root s.mem) s.alloc →
      tablePath to_ = p ++ levels.map (fun l => pageIndex l to_) →
      walk child s.mem root.addr p = some (pt.frameOf current) →
      pt.createLevels to_ levels current s = .ok (r, s') →
      (∃ n, n ≤ levels.length ∧ 0 < n ∧ Links pt root to_ n s s'
          ∧ r = .error .tableAllocationFailed)
        ∨ ∃ current', Links pt root to_ levels.length s s' ∧ r = .ok current'
          ∧ walk child s'.mem root.addr (tablePath to_) = some (pt.frameOf current')
          ∧ (levels ≠ [] → ∀ j, s'.mem (pt.frameOf current') j = PageTableEntry.new) := by
  induction levels with
  | nil =>
      intro p current s s' r _ _ hp hn h
      cases h
      rw [List.map_nil, List.append_nil] at hp
      right
      refine ⟨current, Links.refl s, rfl, ?_, fun hne => absurd rfl hne⟩
      rw [hp]
      exact hn
  | cons level rest ih =>
      intro p current s s' r hwf hfresh hp hn h
      obtain ⟨h1, h4⟩ := hlv level List.mem_cons_self
      obtain ⟨hu, hcase⟩ := createLevels_cons_cases h1 h4 h
      rw [List.map_cons] at hp
      rcases hcase with ⟨e, a', ha, rfl, rfl⟩ | ⟨f, a', next, ha, hal, hnext, h⟩
      -- the allocator answered `Err`: the call it took counts as a step of its own
      · left
        have hw := walk_below_unused hp hn hu
        exact ⟨1, Nat.le_add_left 1 _, Nat.zero_lt_one,
          Links.step (LinkStep.fail hw ha) (Links.refl _), rfl⟩
      -- it answered `Ok`: the frame is linked, and the rest is one level down
      · obtain ⟨hfr, -⟩ := hfresh _ _ ha
        have hdown := descend hwf hto hp hn hu ha hal hnext hfr
        have hpres := linkStep_preserved hto hwf hdown.step
        have hfresh' := hpres.fresh rest.length hfresh
        rcases ih (fun l hl => hlv l (List.mem_cons_of_mem level hl)) hpres.wf hfresh'
            (path_down hp) hdown.found h with
          ⟨n, hle, hpos, hlinks, hr⟩ | ⟨current', hlinks, hr, hw, hempty⟩
        · left
          exact ⟨n + 1, Nat.succ_le_succ hle, Nat.succ_pos n, Links.step hdown.step hlinks, hr⟩
        · right
          refine ⟨current', Links.step hdown.step hlinks, hr, hw, fun _ => ?_⟩
          cases rest with
          | nil =>
              -- the table just linked is the level-1 table
              cases hr
              cases h
              exact hdown.empty
          | cons l rest' => exact hempty (List.cons_ne_nil l rest')

/-- The creation loop returns when the allocator answers, provided the first
    entry it fills is unused: every later one lies in a table it has just
    emptied. -/
theorem createLevels_total (hto : pageIndex 4 to_ ≠ RECURSIVE) {levels : List Nat}
    (hlv : ∀ l ∈ levels, 1 ≤ l ∧ l ≤ 4) :
    ∀ {p : List (Fin 512)} {current : VirtAddr} {s : PagingState σ},
      TreeWF pt root s.mem → Fresh levels.length (tables root s.mem) s.alloc →
      Live pt.internalOffset levels.length s.alloc →
      tablePath to_ = p ++ levels.map (fun l => pageIndex l to_) →
      walk child s.mem root.addr p = some (pt.frameOf current) →
      (∀ l rest, levels = l :: rest →
        s.mem (pt.frameOf current) (pageIndex l to_) = PageTableEntry.new) →
      ∃ r s', pt.createLevels to_ levels current s = .ok (r, s')
        ∧ (NeverFails levels.length s.alloc → ∃ current', r = .ok current') := by
  induction levels with
  | nil =>
      intro p current s _ _ _ _ _ _
      exact ⟨.ok current, s, rfl, fun _ => ⟨current, rfl⟩⟩
  | cons level rest ih =>
      intro p current s hwf hfresh hlive hp hn hfirst
      obtain ⟨h1, h4⟩ := hlv level List.mem_cons_self
      have hu := hfirst level rest rfl
      obtain ⟨answer, a', ha, hlive', hok⟩ := hlive
      cases answer with
      | error e =>
          refine ⟨_, _, createLevels_cons_fail h1 h4 hu ha, ?_⟩
          rintro ⟨f, a₁, ha₁, -⟩
          cases ha.symm.trans ha₁
      | ok f =>
          obtain ⟨hal, hcan⟩ := hok f rfl
          obtain ⟨hfr, -⟩ := hfresh _ _ ha
          rw [List.map_cons] at hp
          have hdown := descend hwf hto hp hn hu ha hal
            (show (⟨f.addr + pt.internalOffset, hcan⟩ : VirtAddr).addr = _ from rfl) hfr
          have hpres := linkStep_preserved hto hwf hdown.step
          obtain ⟨r, s', hr, hnf⟩ := ih
            (fun l hl => hlv l (List.mem_cons_of_mem level hl)) hpres.wf
            (hpres.fresh rest.length hfresh) hlive' (path_down hp) hdown.found
            (fun l _ _ => hdown.empty (pageIndex l to_))
          refine ⟨r, s', ?_, ?_⟩
          · rw [createLevels_cons_ok h1 h4 hu ha hal hwf.offset hcan]
            exact hr
          · intro h
            exact hnf (hpres.neverFails rest.length h)

end Create

/-! ## `map` -/

section Map

variable {σ : Type} {from_ : PhysAddr} {to_ : VirtAddr} {flags : PageTableFlags}
  {s s' : PagingState σ} {r : Except PagingError Unit}

/-- The last lines of `map`, inverted. -/
theorem mapLeaf_cases {current : VirtAddr}
    (h : pt.mapLeaf from_ to_ flags current s = .ok (r, s')) :
    (r = .error (.alreadyMapped to_) ∧ s' = s
        ∧ (s.mem (pt.frameOf current) (pageIndex 1 to_)).isUnused = false)
      ∨ (r = .ok () ∧ from_.addr % PAGE_SIZE = 0
        ∧ (s.mem (pt.frameOf current) (pageIndex 1 to_)).isUnused = true
        ∧ s' = ⟨setEntry s.mem (pt.frameOf current) (pageIndex 1 to_)
            (.ofAddr from_ flags), s.alloc⟩) := by
  rw [RecursivePageTable.mapLeaf, getPageIndex_eq (by omega) (by omega), ok_bind] at h
  cases hu : (s.mem (pt.frameOf current) (pageIndex 1 to_)).isUnused with
  | true =>
      rw [if_pos hu] at h
      obtain ⟨entry, hentry, h⟩ := bind_eq_ok.mp h
      obtain ⟨hal, rfl⟩ := PageTableEntry.setAddr_eq_ok.mp hentry
      cases h
      exact Or.inr ⟨rfl, hal, rfl, rfl⟩
  | false =>
      rw [if_neg (by rw [hu]; exact Bool.false_ne_true)] at h
      cases h
      exact Or.inl ⟨rfl, rfl, rfl⟩

theorem mapLeaf_ok (current : VirtAddr) (s : PagingState σ)
    (hal : from_.addr % PAGE_SIZE = 0) :
    ∃ r s', pt.mapLeaf from_ to_ flags current s = .ok (r, s')
      ∧ r ≠ .error .tableAllocationFailed := by
  have hentry : PageTableEntry.setAddr from_ flags = .ok (.ofAddr from_ flags) :=
    PageTableEntry.setAddr_eq_ok.mpr ⟨hal, rfl⟩
  rw [RecursivePageTable.mapLeaf, getPageIndex_eq (by omega) (by omega), ok_bind]
  by_cases hu : (s.mem (pt.frameOf current) (pageIndex 1 to_)).isUnused = true
  · rw [if_pos hu, hentry, ok_bind]
    exact ⟨_, _, rfl, nofun⟩
  · rw [if_neg hu]
    exact ⟨_, _, rfl, nofun⟩

/-- The table lookup by level, on a well-formed tree. -/
theorem getPageTable_walk (hwf : TreeWF pt root s.mem) {level : Nat} (h1 : 1 ≤ level)
    (h4 : level ≤ 4) {t : Option VirtAddr}
    (h : pt.getPageTable s.mem level to_ = .ok t) :
    walk child s.mem root.addr ((tablePath to_).take (4 - level))
      = t.map pt.frameOf := by
  have hw := RecursivePageTable.getPageTable_eq h1 h4 h
  rwa [hwf.frameOf_lvl4] at hw

variable [FrameAllocator σ]

/-- The level at which `map` finds a table: the table exists there and, unless
    that level is 1, none exists one level below. -/
structure FoundAt (pt : RecursivePageTable) (root : PhysAddr) (to_ : VirtAddr)
    (mem : PhysMem) (level : Nat) (table : VirtAddr) : Prop where
  low : 1 ≤ level
  high : level ≤ 4
  found : walk child mem root.addr ((tablePath to_).take (4 - level))
    = some (pt.frameOf table)
  missing : 1 < level →
    walk child mem root.addr ((tablePath to_).take (5 - level)) = none

theorem creation_path {level : Nat} (h1 : 1 ≤ level) (h4 : level ≤ 4) (v : VirtAddr) :
    tablePath v = (tablePath v).take (4 - level)
      ++ ((List.range' 2 (level - 1)).reverse.map fun l => pageIndex l v) := by
  rcases show level = 1 ∨ level = 2 ∨ level = 3 ∨ level = 4 by omega with
    rfl | rfl | rfl | rfl <;> rfl

theorem creation_levels {level : Nat} (h4 : level ≤ 4) :
    ∀ l ∈ (List.range' 2 (level - 1)).reverse, 1 ≤ l ∧ l ≤ 4 := by
  intro l hl
  rw [List.mem_reverse, List.mem_range'] at hl
  obtain ⟨j, hj, rfl⟩ := hl
  omega

/-- Nothing is mapped at `to_` when its level-1 table is missing. -/
theorem FoundAt.leafEntry_none {mem : PhysMem} {level : Nat} {table : VirtAddr}
    (hf : FoundAt pt root to_ mem level table) (h : 1 < level) :
    leafEntry root mem to_ = none := by
  apply leafEntry_of_no_table
  have hsplit : tablePath to_ = (tablePath to_).take (5 - level)
      ++ (tablePath to_).drop (5 - level) := (List.take_append_drop _ _).symm
  rw [hsplit, walk_append, hf.missing h]
  rfl

/-- The entry that `map` fills first is unused. -/
theorem FoundAt.first_unused {mem : PhysMem} {level : Nat} {table : VirtAddr}
    (hf : FoundAt pt root to_ mem level table) {l : Nat} {rest : List Nat}
    (hl : (List.range' 2 (level - 1)).reverse = l :: rest) :
    mem (pt.frameOf table) (pageIndex l to_) = PageTableEntry.new := by
  have hlow := hf.low
  have hhigh := hf.high
  have hlevel : 1 < level := by
    by_contra hle
    have : level = 1 := by omega
    subst this
    cases hl
  have hstep : l = level ∧ (tablePath to_).take (5 - level)
      = (tablePath to_).take (4 - level) ++ [pageIndex level to_] := by
    rcases show level = 2 ∨ level = 3 ∨ level = 4 by omega with rfl | rfl | rfl
    · exact ⟨(List.cons.inj hl).1.symm, rfl⟩
    · exact ⟨(List.cons.inj hl).1.symm, rfl⟩
    · exact ⟨(List.cons.inj hl).1.symm, rfl⟩
  have hmiss := hf.missing hlevel
  rw [hstep.2, walk_snoc, hf.found] at hmiss
  have hnone : child (mem (pt.frameOf table) (pageIndex level to_)) = none := hmiss
  rw [hstep.1]
  cases hu : (mem (pt.frameOf table) (pageIndex level to_)).isUnused with
  | true => exact isUnused_iff.mp hu
  | false =>
      rw [child_of_used hu] at hnone
      cases hnone

/-- What `map` can do, as one disjunction: it finds the page mapped and changes
    nothing; it runs out of frames after linking some tables; or it links the
    missing tables and writes the leaf entry. -/
inductive MapOutcome (pt : RecursivePageTable) (root : PhysAddr) (from_ : PhysAddr)
    (to_ : VirtAddr) (flags : PageTableFlags) (s : PagingState σ) :
    Except PagingError Unit → PagingState σ → Prop where
  | alreadyMapped {e : PageTableEntry} :
      leafEntry root s.mem to_ = some e →
      MapOutcome pt root from_ to_ flags s (.error (.alreadyMapped to_)) s
  | allocFailed {n : Nat} {s' : PagingState σ} :
      n ≤ 3 → Links pt root to_ n s s' → leafEntry root s.mem to_ = none → 0 < n →
      MapOutcome pt root from_ to_ flags s (.error .tableAllocationFailed) s'
  | mapped {n t : Nat} {s₁ : PagingState σ} :
      n ≤ 3 → Links pt root to_ n s s₁ → leafEntry root s.mem to_ = none →
      from_.addr % PAGE_SIZE = 0 →
      walk child s₁.mem root.addr (tablePath to_) = some t →
      MapOutcome pt root from_ to_ flags s (.ok ())
        ⟨setEntry s₁.mem t (pageIndex 1 to_) (.ofAddr from_ flags), s₁.alloc⟩

theorem mapAt_cases (hto : pageIndex 4 to_ ≠ RECURSIVE) (hwf : TreeWF pt root s.mem)
    (hfresh : Fresh 3 (tables root s.mem) s.alloc) {level : Nat} {table : VirtAddr}
    (hf : FoundAt pt root to_ s.mem level table)
    (h : andThen (pt.createLevels to_ (List.range' 2 (level - 1)).reverse table s)
        (fun current s => pt.mapLeaf from_ to_ flags current s) = .ok (r, s')) :
    MapOutcome pt root from_ to_ flags s r s' := by
  have hlow := hf.low
  have hhigh := hf.high
  have hlen : (List.range' 2 (level - 1)).reverse.length = level - 1 := by simp
  have hfresh' : Fresh (List.range' 2 (level - 1)).reverse.length
      (tables root s.mem) s.alloc := fresh_mono hfresh (by omega)
  have hcreate {r₁ : Except PagingError VirtAddr} {s₁ : PagingState σ}
      (h₁ : pt.createLevels to_ (List.range' 2 (level - 1)).reverse table s
        = .ok (r₁, s₁)) :=
    createLevels_cases hto (creation_levels hhigh) hwf hfresh'
      (creation_path hlow hhigh to_) hf.found h₁
  rcases andThen_cases h with ⟨e, h₁, rfl⟩ | ⟨current, s₁, h₁, h₂⟩
  · rcases hcreate h₁ with ⟨n, hn, hpos, hlinks, he⟩ | ⟨_, _, he, _⟩
    · cases he
      rw [hlen] at hn
      exact MapOutcome.allocFailed (by omega) hlinks (hf.leafEntry_none (by omega)) hpos
    · cases he
  · rcases hcreate h₁ with ⟨_, _, _, _, he⟩ | ⟨current', hlinks, he, hw, hempty⟩
    · cases he
    · cases he
      rw [hlen] at hlinks
      have hpres := links_preserved hto hlinks hwf
      have hleaf := hpres.leaf to_ hto
      rw [leafEntry_of_walk hw] at hleaf
      rcases mapLeaf_cases h₂ with ⟨rfl, rfl, hu⟩ | ⟨rfl, hal, hu, rfl⟩
      · -- a used entry: the level-1 table is not new, so no table was created
        by_cases h1 : level = 1
        · subst h1
          cases hlinks
          rw [hu] at hleaf
          exact MapOutcome.alreadyMapped hleaf.symm
        · have hne : (List.range' 2 (level - 1)).reverse ≠ [] := by
            intro hnil
            rw [hnil] at hlen
            exact absurd hlen (by simp; omega)
          rw [hempty hne] at hu
          cases hu
      · rw [hu] at hleaf
        exact MapOutcome.mapped (by omega) hlinks hleaf.symm hal hw

/-- The outer loop of `map` stops at the lowest level whose table exists. -/
theorem mapFrom_eq (from_ : PhysAddr) (flags : PageTableFlags)
    (hto : pageIndex 4 to_ ≠ RECURSIVE) (hwf : TreeWF pt root s.mem) :
    ∃ level table, FoundAt pt root to_ s.mem level table
      ∧ pt.mapFrom from_ to_ flags s (List.range' 1 4)
        = andThen (pt.createLevels to_ (List.range' 2 (level - 1)).reverse table s)
            (fun current s => pt.mapLeaf from_ to_ flags current s) := by
  have hnone : ∀ level rest, pt.getPageTable s.mem level to_ = .ok none →
      pt.mapFrom from_ to_ flags s (level :: rest)
        = pt.mapFrom from_ to_ flags s rest := by
    intro level rest h
    rw [RecursivePageTable.mapFrom, h, ok_bind]
  have hsome : ∀ level rest table, pt.getPageTable s.mem level to_ = .ok (some table) →
      pt.mapFrom from_ to_ flags s (level :: rest)
        = andThen (pt.createLevels to_ (List.range' 2 (level - 1)).reverse table s)
            (fun current s => pt.mapLeaf from_ to_ flags current s) := by
    intro level rest table h
    rw [RecursivePageTable.mapFrom, h, ok_bind]
  rw [show List.range' 1 4 = [1, 2, 3, 4] from rfl]
  obtain ⟨t₁, h₁⟩ := hwf.getPageTable_total (l := 1) (by omega) (by omega) hto
  have w₁ := getPageTable_walk hwf (by omega) (by omega) h₁
  cases t₁ with
  | some table =>
      exact ⟨1, table, ⟨by omega, by omega, w₁, fun h => absurd h (by omega)⟩,
        hsome 1 _ table h₁⟩
  | none =>
      rw [hnone 1 _ h₁]
      obtain ⟨t₂, h₂⟩ := hwf.getPageTable_total (l := 2) (by omega) (by omega) hto
      have w₂ := getPageTable_walk hwf (by omega) (by omega) h₂
      cases t₂ with
      | some table =>
          exact ⟨2, table, ⟨by omega, by omega, w₂, fun _ => w₁⟩, hsome 2 _ table h₂⟩
      | none =>
          rw [hnone 2 _ h₂]
          obtain ⟨t₃, h₃⟩ := hwf.getPageTable_total (l := 3) (by omega) (by omega) hto
          have w₃ := getPageTable_walk hwf (by omega) (by omega) h₃
          cases t₃ with
          | some table =>
              exact ⟨3, table, ⟨by omega, by omega, w₃, fun _ => w₂⟩,
                hsome 3 _ table h₃⟩
          | none =>
              rw [hnone 3 _ h₃]
              have h₄ : pt.getPageTable s.mem 4 to_ = .ok (some pt.lvl4) := rfl
              have w₄ := getPageTable_walk hwf (by omega) (by omega) h₄
              exact ⟨4, pt.lvl4, ⟨by omega, by omega, w₄, fun _ => w₃⟩,
                hsome 4 _ pt.lvl4 h₄⟩

theorem map_eq_mapFrom (hto : pageIndex 4 to_ ≠ RECURSIVE) :
    pt.map from_ to_ flags s = pt.mapFrom from_ to_ flags s (List.range' 1 4) := by
  rw [RecursivePageTable.map, getPageIndex_eq (by omega) (by omega), ok_bind,
    if_neg hto]

/-- `map` refuses the recursive slot and changes nothing. -/
theorem map_reserved (hto : pageIndex 4 to_ = RECURSIVE) :
    pt.map from_ to_ flags s = .ok (.error (.attemptedMappingToReserved to_), s) := by
  rw [RecursivePageTable.map, getPageIndex_eq (by omega) (by omega), ok_bind,
    if_pos hto]
  rfl

/-- **`map`, INVERTED.** -/
theorem map_cases (hto : pageIndex 4 to_ ≠ RECURSIVE) (hwf : TreeWF pt root s.mem)
    (hfresh : Fresh 3 (tables root s.mem) s.alloc)
    (h : pt.map from_ to_ flags s = .ok (r, s')) :
    MapOutcome pt root from_ to_ flags s r s' := by
  rw [map_eq_mapFrom hto] at h
  obtain ⟨level, table, hf, heq⟩ := mapFrom_eq from_ flags hto hwf
  rw [heq] at h
  exact mapAt_cases hto hwf hfresh hf h

/-- **`map` RETURNS.**  On a well-formed table `map` never fires its assertion
    and never reaches `unreachable!()`; it fails for want of a frame only if
    the allocator does. -/
theorem map_total (hto : pageIndex 4 to_ ≠ RECURSIVE) (hwf : TreeWF pt root s.mem)
    (hfresh : Fresh 3 (tables root s.mem) s.alloc)
    (hlive : Live pt.internalOffset 3 s.alloc) (hal : from_.addr % PAGE_SIZE = 0) :
    ∃ r s', pt.map from_ to_ flags s = .ok (r, s')
      ∧ (NeverFails 3 s.alloc → r ≠ .error .tableAllocationFailed) := by
  rw [map_eq_mapFrom hto]
  obtain ⟨level, table, hf, heq⟩ := mapFrom_eq from_ flags hto hwf
  rw [heq]
  have hlow := hf.low
  have hhigh := hf.high
  have hlen : (List.range' 2 (level - 1)).reverse.length = level - 1 := by simp
  obtain ⟨r₁, s₁, h₁, hnf⟩ := createLevels_total hto
    (creation_levels hhigh) hwf (fresh_mono hfresh (by omega))
    (live_mono hlive (by omega)) (creation_path hlow hhigh to_) hf.found
    (fun l rest hl => hf.first_unused hl)
  rw [h₁]
  cases r₁ with
  | error e =>
      refine ⟨.error e, s₁, rfl, ?_⟩
      intro hn
      obtain ⟨_, he⟩ := hnf (neverFails_mono hn (by omega))
      cases he
  | ok current =>
      obtain ⟨r, s', h₂, hne⟩ := mapLeaf_ok current s₁ hal
      exact ⟨r, s', h₂, fun _ => hne⟩

end Map

/-! ## `unmap`, `update_flags`, `translate` -/

section Leaf

variable {σ : Type} {v : VirtAddr} {s : PagingState σ}

/-- The level-1 table of an address, as the code and as the radix walk finds
    it. -/
theorem getPageTable_one (hv : pageIndex 4 v ≠ RECURSIVE)
    (hwf : TreeWF pt root s.mem) :
    ∃ t, pt.getPageTable s.mem 1 v = .ok t
      ∧ walk child s.mem root.addr (tablePath v) = t.map pt.frameOf := by
  obtain ⟨t, ht⟩ := hwf.getPageTable_total (l := 1) (by omega) (by omega) hv
  exact ⟨t, ht, getPageTable_walk hwf (by omega) (by omega) ht⟩

/-- **`unmap`**: a page without a leaf entry is refused, any other loses it. -/
theorem unmap_cases (hv : pageIndex 4 v ≠ RECURSIVE) (hwf : TreeWF pt root s.mem) :
    (leafEntry root s.mem v = none ∧ pt.unmap v s = .ok (.error (.notMapped v), s))
      ∨ ∃ t, walk child s.mem root.addr (tablePath v) = some t
        ∧ leafEntry root s.mem v = some (s.mem t (pageIndex 1 v))
        ∧ pt.unmap v s
          = .ok (.ok (), ⟨setEntry s.mem t (pageIndex 1 v) .new, s.alloc⟩) := by
  obtain ⟨t, ht, hw⟩ := getPageTable_one hv hwf
  rw [RecursivePageTable.unmap, ht, ok_bind]
  cases t with
  | none => exact Or.inl ⟨leafEntry_of_no_table hw, rfl⟩
  | some table =>
      have hleaf := leafEntry_of_walk hw
      dsimp only
      rw [getPageIndex_eq (by omega) (by omega), ok_bind]
      cases hu : (s.mem (pt.frameOf table) (pageIndex 1 v)).isUnused with
      | true =>
          rw [hu] at hleaf
          exact Or.inl ⟨hleaf, rfl⟩
      | false =>
          rw [hu] at hleaf
          exact Or.inr ⟨pt.frameOf table, hw, hleaf, rfl⟩

/-- **`update_flags`**: a page without a leaf entry is left alone, with an
    error only if its level-1 table exists; any other gets the new flags. -/
theorem updateFlags_cases (flags : PageTableFlags) (hv : pageIndex 4 v ≠ RECURSIVE)
    (hwf : TreeWF pt root s.mem) :
    (leafEntry root s.mem v = none
        ∧ pt.updateFlags v flags s
          = .ok (if walk child s.mem root.addr (tablePath v) = none then .ok ()
              else .error (.notMapped v), s))
      ∨ ∃ t, walk child s.mem root.addr (tablePath v) = some t
        ∧ leafEntry root s.mem v = some (s.mem t (pageIndex 1 v))
        ∧ pt.updateFlags v flags s
          = .ok (.ok (), ⟨setEntry s.mem t (pageIndex 1 v)
              ((s.mem t (pageIndex 1 v)).setFlags flags), s.alloc⟩) := by
  obtain ⟨t, ht, hw⟩ := getPageTable_one hv hwf
  rw [RecursivePageTable.updateFlags, ht, ok_bind]
  cases t with
  | none =>
      left
      refine ⟨leafEntry_of_no_table hw, ?_⟩
      rw [if_pos (show walk child s.mem root.addr (tablePath v) = none from hw)]
      rfl
  | some table =>
      have hleaf := leafEntry_of_walk hw
      dsimp only
      rw [getPageIndex_eq (by omega) (by omega), ok_bind]
      cases hu : (s.mem (pt.frameOf table) (pageIndex 1 v)).isUnused with
      | true =>
          rw [hu] at hleaf
          left
          have hne : ¬ walk child s.mem root.addr (tablePath v) = none := by
            rw [hw]
            exact nofun
          refine ⟨hleaf, ?_⟩
          rw [if_pos rfl, if_neg hne]
          rfl
      | false =>
          rw [hu] at hleaf
          exact Or.inr ⟨pt.frameOf table, hw, hleaf, rfl⟩

/-- The physical address that an entry gives to a byte of its page. -/
def physAt (e : PageTableEntry) (v : VirtAddr) : PhysAddr :=
  ⟨e.addr.addr + v.addr % PAGE_SIZE, by
    have hal := e.addr_aligned
    have hlt := e.addr.valid
    unfold PAGE_SIZE
    omega⟩

/-- **`translate`** reads the leaf entry. -/
theorem translate_eq {mem : PhysMem} (hv : pageIndex 4 v ≠ RECURSIVE)
    (hwf : TreeWF pt root mem) :
    pt.translate mem v = .ok ((leafEntry root mem v).map fun e => physAt e v) := by
  obtain ⟨t, ht, hw⟩ := getPageTable_one (s := (⟨mem, ()⟩ : PagingState Unit)) hv hwf
  rw [RecursivePageTable.translate, ht, ok_bind]
  cases t with
  | none =>
      rw [leafEntry_of_no_table hw]
      rfl
  | some table =>
      have hleaf := leafEntry_of_walk hw
      dsimp only
      rw [getPageIndex_eq (by omega) (by omega), ok_bind]
      cases hu : (mem (pt.frameOf table) (pageIndex 1 v)).isUnused with
      | true =>
          rw [hu] at hleaf
          rw [hleaf]
          rfl
      | false =>
          rw [hu] at hleaf
          have hadd : (mem (pt.frameOf table) (pageIndex 1 v)).addr.add
              (v.addr % PAGE_SIZE)
              = .ok (physAt (mem (pt.frameOf table) (pageIndex 1 v)) v) :=
            PhysAddr.new_eq_ok.mpr rfl
          rw [hleaf, if_neg Bool.false_ne_true, hadd]
          rfl

/-- **`load`** writes the level-4 frame to CR3. -/
theorem load_eq {mem : PhysMem} (hwf : TreeWF pt root mem) :
    pt.load = .ok ({ pt with lvl4 := LEVEL4 }, root) := by
  have hlvl4 := hwf.lvl4
  have hroot : PhysAddr.new (pt.lvl4.addr - pt.internalOffset) = .ok root :=
    PhysAddr.new_eq_ok.mpr (by omega)
  rw [RecursivePageTable.load, if_pos (by omega), hroot, ok_bind,
    if_pos hwf.root_aligned]
  rfl

end Leaf

end KermolMapStep
