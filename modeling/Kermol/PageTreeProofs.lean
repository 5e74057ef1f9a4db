import Kermol.PageTableProofs

/-! # The table tree and what `map` can do to it

    Apart from the recursive slot the tables form an unshared tree of depth
    three: `TreeWF` is that invariant.  Two kinds of memory write keep it.
    A `LinkStep` hangs a fresh, empty table under an unused entry on the way to
    an address; a leaf write changes one entry of a level-1 table.

    `map_cases` says everything `map` can do in these terms: some link steps
    and then an error, or some link steps and one leaf write. -/

namespace KermolPageTree

open RustEffect X86Paging KermolFrameAllocator KermolPageTable RadixTree

/-! ## Paths of tables -/

/-- The paths from the level-4 table to a table, the recursive slot left
    out. -/
def tablePaths : Set (List (Fin 512)) :=
  {p | p.length ≤ 3 ∧ p.head? ≠ some RECURSIVE}

theorem prefixClosed_tablePaths : PrefixClosed tablePaths := by
  rintro p i ⟨hlen, hhead⟩
  refine ⟨by rw [List.length_append] at hlen; omega, ?_⟩
  cases p with
  | nil => exact nofun
  | cons j p => exact hhead

theorem nil_mem_tablePaths : ([] : List (Fin 512)) ∈ tablePaths :=
  ⟨by simp, nofun⟩

theorem tablePath_prefix_mem {v : VirtAddr} {p q : List (Fin 512)}
    (hv : pageIndex 4 v ≠ RECURSIVE) (h : tablePath v = p ++ q) :
    p ∈ tablePaths := by
  constructor
  · have hlen := congrArg List.length h
    rw [List.length_append] at hlen
    have : (tablePath v).length = 3 := rfl
    omega
  · cases p with
    | nil => exact nofun
    | cons i p =>
        have hi : pageIndex 4 v = i := (List.cons.inj h).1
        intro hrec
        exact hv (hi.trans (Option.some.inj hrec))

theorem tablePath_mem {v : VirtAddr} (hv : pageIndex 4 v ≠ RECURSIVE) :
    tablePath v ∈ tablePaths :=
  tablePath_prefix_mem hv (List.append_nil _).symm

theorem tablePath_snoc_notMem (v : VirtAddr) (i : Fin 512) :
    tablePath v ++ [i] ∉ tablePaths := by
  rintro ⟨hlen, -⟩
  exact absurd hlen (by simp [tablePath])

/-! ## The invariant -/

/-- The tables reached from the level-4 table, the recursive slot left out. -/
def tables (root : PhysAddr) (mem : PhysMem) : Set Nat :=
  reached child mem root.addr tablePaths

/-- The tables form an unshared tree whose inner entries are the words that
    `map` writes, with the recursive slot as `new` left it.  Leaf entries are
    not constrained. -/
structure TreeWF (pt : RecursivePageTable) (root : PhysAddr) (mem : PhysMem) :
    Prop where
  lvl4 : pt.lvl4.addr = root.addr + pt.internalOffset
  offset : pt.internalOffset % PAGE_SIZE = 0
  unshared : Unshared child mem root.addr tablePaths
  slot : mem root.addr RECURSIVE = PageTableEntry.ofAddr root flagsRw
  inner : ∀ p n i, p ++ [i] ∈ tablePaths →
    walk child mem root.addr p = some n →
    mem n i = PageTableEntry.new
      ∨ ∃ f : PhysAddr, f.addr % PAGE_SIZE = 0
        ∧ mem n i = PageTableEntry.ofAddr f flagsRwx
  reach : ∀ n ∈ tables root mem, n % PAGE_SIZE = 0 ∧ n < 2 ^ 52
    ∧ IsCanonical (n + pt.internalOffset)

variable {pt : RecursivePageTable} {root : PhysAddr} {mem : PhysMem}

namespace TreeWF

theorem frameOf_lvl4 (h : TreeWF pt root mem) : pt.frameOf pt.lvl4 = root.addr := by
  unfold RecursivePageTable.frameOf
  rw [h.lvl4]
  omega

theorem root_mem : root.addr ∈ tables root mem :=
  ⟨[], nil_mem_tablePaths, rfl⟩

theorem root_aligned (h : TreeWF pt root mem) : root.addr % PAGE_SIZE = 0 :=
  (h.reach _ root_mem).1

/-- A table at a nonempty path is not the level-4 table. -/
theorem ne_root (h : TreeWF pt root mem) {p : List (Fin 512)} {n : Nat}
    (hp : p ∈ tablePaths) (hne : p ≠ []) (hn : walk child mem root.addr p = some n) :
    n ≠ root.addr := by
  rintro rfl
  exact hne (h.unshared p [] root.addr hp nil_mem_tablePaths hn rfl)

/-- Looking up a table never panics. -/
theorem getPageTable_total (h : TreeWF pt root mem) {l : Nat} (h1 : 1 ≤ l)
    (h4 : l ≤ 4) {v : VirtAddr} (hv : pageIndex 4 v ≠ RECURSIVE) :
    ∃ r, pt.getPageTable mem l v = .ok r := by
  refine RecursivePageTable.getPageTable_total h1 h4 ?_
  intro p q n hpq hn
  rw [h.frameOf_lvl4] at hn
  exact (h.reach n ⟨p, tablePath_prefix_mem hv hpq, hn⟩).2.2

end TreeWF

/-- What the page table says about an address: the entry in use in its level-1
    table. -/
def leafEntry (root : PhysAddr) (mem : PhysMem) (v : VirtAddr) :
    Option PageTableEntry :=
  match walk child mem root.addr (tablePath v) with
  | none => none
  | some n =>
      if (mem n (pageIndex 1 v)).isUnused then none else some (mem n (pageIndex 1 v))

theorem leafEntry_of_walk {v : VirtAddr} {n : Nat}
    (hn : walk child mem root.addr (tablePath v) = some n) :
    leafEntry root mem v
      = if (mem n (pageIndex 1 v)).isUnused then none
        else some (mem n (pageIndex 1 v)) := by
  unfold leafEntry
  rw [hn]

theorem leafEntry_of_no_table {v : VirtAddr}
    (hn : walk child mem root.addr (tablePath v) = none) :
    leafEntry root mem v = none := by
  unfold leafEntry
  rw [hn]

/-- The way to a page is the same for all its addresses. -/
theorem tablePath_congr {v w : VirtAddr} (h : w.page = v.page) :
    tablePath w = tablePath v := by
  unfold tablePath
  rw [pageIndex_eq_of_page_eq h (by omega) (by omega : (4 : Nat) ≤ 4),
    pageIndex_eq_of_page_eq h (by omega) (by omega : (3 : Nat) ≤ 4),
    pageIndex_eq_of_page_eq h (by omega) (by omega : (2 : Nat) ≤ 4)]

theorem leafEntry_congr {v w : VirtAddr} (h : w.page = v.page) :
    leafEntry root mem w = leafEntry root mem v := by
  unfold leafEntry
  rw [tablePath_congr h, pageIndex_eq_of_page_eq h (by omega) (by omega : (1 : Nat) ≤ 4)]

/-! ## Leaf writes -/

/-- Writing an entry of a level-1 table keeps the tree. -/
theorem treeWF_leaf (hwf : TreeWF pt root mem) {v : VirtAddr} {n : Nat}
    (hv : pageIndex 4 v ≠ RECURSIVE)
    (hn : walk child mem root.addr (tablePath v) = some n) (e : PageTableEntry) :
    TreeWF pt root (setEntry mem n (pageIndex 1 v) e) := by
  have hp := tablePath_mem hv
  have hi := tablePath_snoc_notMem v (pageIndex 1 v)
  have hwalk : ∀ q ∈ tablePaths,
      walk child (setEntry mem n (pageIndex 1 v) e) root.addr q
        = walk child mem root.addr q := fun q hq =>
    walk_setEntry_leaf prefixClosed_tablePaths hwf.unshared e hp hn hi hq
  refine ⟨hwf.lvl4, hwf.offset, ?_, ?_, ?_, ?_⟩
  · exact unshared_setEntry_leaf prefixClosed_tablePaths hwf.unshared e hp hn hi
  · have hne : root.addr ≠ n := fun h =>
      hwf.ne_root hp (by simp [tablePath]) hn h.symm
    rw [setEntry_of_ne e (Or.inl hne)]
    exact hwf.slot
  · intro p m i hpi hm
    have hpm : p ∈ tablePaths := prefixClosed_tablePaths p i hpi
    rw [hwalk p hpm] at hm
    have hmn : m ≠ n := by
      rintro rfl
      rw [hwf.unshared p (tablePath v) m hpm hp hm hn] at hpi
      exact tablePath_snoc_notMem v i hpi
    rw [setEntry_of_ne e (Or.inl hmn)]
    exact hwf.inner p m i hpi hm
  · intro m hm
    refine hwf.reach m ?_
    rwa [tables, reached_setEntry_leaf prefixClosed_tablePaths hwf.unshared e hp hn hi]
      at hm

theorem tables_leaf (hwf : TreeWF pt root mem) {v : VirtAddr} {n : Nat}
    (hv : pageIndex 4 v ≠ RECURSIVE)
    (hn : walk child mem root.addr (tablePath v) = some n) (e : PageTableEntry) :
    tables root (setEntry mem n (pageIndex 1 v) e) = tables root mem :=
  reached_setEntry_leaf prefixClosed_tablePaths hwf.unshared e (tablePath_mem hv) hn
    (tablePath_snoc_notMem v _)

/-- A leaf write changes what the table says about the written page. -/
theorem leafEntry_leaf_same (hwf : TreeWF pt root mem) {v w : VirtAddr} {n : Nat}
    (hv : pageIndex 4 v ≠ RECURSIVE)
    (hn : walk child mem root.addr (tablePath v) = some n) (e : PageTableEntry)
    (hw : w.page = v.page) :
    leafEntry root (setEntry mem n (pageIndex 1 v) e) w
      = if e.isUnused then none else some e := by
  have hidx : pageIndex 1 w = pageIndex 1 v :=
    pageIndex_eq_of_page_eq hw (by omega) (by omega)
  have hwalk : walk child (setEntry mem n (pageIndex 1 v) e) root.addr (tablePath w)
      = some n := by
    rw [tablePath_congr hw, walk_setEntry_leaf prefixClosed_tablePaths hwf.unshared e
      (tablePath_mem hv) hn (tablePath_snoc_notMem v _) (tablePath_mem hv), hn]
  rw [leafEntry_of_walk hwalk, hidx, setEntry_same]

/-- **NO INTERFERENCE.**  A leaf write changes nothing about any other page:
    another page differs in one of the four indices, and tables are not
    shared. -/
theorem leafEntry_leaf_other (hwf : TreeWF pt root mem) {v w : VirtAddr} {n : Nat}
    (hv : pageIndex 4 v ≠ RECURSIVE) (hw : pageIndex 4 w ≠ RECURSIVE)
    (hn : walk child mem root.addr (tablePath v) = some n) (e : PageTableEntry)
    (hne : w.page ≠ v.page) :
    leafEntry root (setEntry mem n (pageIndex 1 v) e) w = leafEntry root mem w := by
  have hwalk := walk_setEntry_leaf prefixClosed_tablePaths hwf.unshared e
    (tablePath_mem hv) hn (tablePath_snoc_notMem v (pageIndex 1 v)) (tablePath_mem hw)
  cases hm : walk child mem root.addr (tablePath w) with
  | none =>
      rw [leafEntry_of_no_table hm, leafEntry_of_no_table (hwalk.trans hm)]
  | some m =>
      have hor : m ≠ n ∨ pageIndex 1 w ≠ pageIndex 1 v := by
        by_cases hmn : m = n
        · right
          intro h1
          subst hmn
          have hpath : tablePath w = tablePath v :=
            hwf.unshared _ _ m (tablePath_mem hw) (tablePath_mem hv) hm hn
          obtain ⟨h4, h3, h2⟩ : pageIndex 4 w = pageIndex 4 v
              ∧ pageIndex 3 w = pageIndex 3 v ∧ pageIndex 2 w = pageIndex 2 v := by
            simpa [tablePath] using hpath
          exact hne (page_eq_of_pageIndex_eq h4 h3 h2 h1)
        · exact Or.inl hmn
      rw [leafEntry_of_walk hm, leafEntry_of_walk (hwalk.trans hm),
        setEntry_of_ne e hor]

/-! ## Linking a table -/

theorem flagsRwx_present : flagsRwx.contains .PRESENT = true := by decide

theorem flagsRw_present : flagsRw.contains .PRESENT = true := by decide

theorem child_ofAddr {f : PhysAddr} {flags : PageTableFlags}
    (hal : f.addr % PAGE_SIZE = 0) (hp : flags.contains .PRESENT = true) :
    child (PageTableEntry.ofAddr f flags) = some f.addr := by
  rw [child_of_used (PageTableEntry.isUnused_ofAddr hp),
    PageTableEntry.addr_ofAddr flags hal]

/-! ## The processor's walk on the tree -/

/-- One inner level of the processor's walk: it stops where the radix walk
    stops, and an inner entry takes no right away. -/
theorem hardwareWalkFrom_inner (hwf : TreeWF pt root mem) {v : VirtAddr}
    {p : List (Fin 512)} {n : Nat} {w nx : Bool} (level : Nat) (hlevel : 0 < level)
    (hpi : p ++ [pageIndex (level + 1) v] ∈ tablePaths)
    (hn : walk child mem root.addr p = some n) :
    (walk child mem root.addr (p ++ [pageIndex (level + 1) v]) = none
        ∧ hardwareWalkFrom mem v (level + 1) n w nx = none)
      ∨ ∃ m, walk child mem root.addr (p ++ [pageIndex (level + 1) v]) = some m
        ∧ hardwareWalkFrom mem v (level + 1) n w nx
          = hardwareWalkFrom mem v level m w nx := by
  rw [walk_snoc, hn]
  rcases hwf.inner p n _ hpi hn with he | ⟨f, hal, he⟩
  · left
    refine ⟨?_, hardwareWalkFrom_unused he⟩
    show child _ = none
    rw [he]
    rfl
  · right
    refine ⟨f.addr, ?_, ?_⟩
    · show child _ = _
      rw [he]
      exact child_ofAddr hal flagsRwx_present
    · have h1 : flagsRwx.bits.getLsbD 1 = true := by decide
      have h63 : flagsRwx.bits.getLsbD 63 = false := by decide
      rw [hardwareWalkFrom_table hlevel hal he (by decide) (by decide), h1, h63,
        Bool.and_true, Bool.or_false]

section Linking

variable {σ : Type} [FrameAllocator σ]

/-- One call of the allocator by `map` on the way to `to_`: it fails, or the
    frame it hands out is linked as an empty table. -/
inductive LinkStep (pt : RecursivePageTable) (root : PhysAddr) (to_ : VirtAddr) :
    PagingState σ → PagingState σ → Prop where
  | fail {s : PagingState σ} {e : MemoryError} {a' : σ} :
      walk child s.mem root.addr (tablePath to_) = none →
      FrameAllocator.alloc s.alloc = .ok (.error e, a') →
      LinkStep pt root to_ s ⟨s.mem, a'⟩
  | link {s : PagingState σ} {p q : List (Fin 512)} {i : Fin 512} {n : Nat}
      {f : PhysAddr} {a' : σ} :
      tablePath to_ = p ++ i :: q →
      walk child s.mem root.addr p = some n →
      s.mem n i = PageTableEntry.new →
      FrameAllocator.alloc s.alloc = .ok (.ok f, a') →
      f.addr % PAGE_SIZE = 0 →
      IsCanonical (f.addr + pt.internalOffset) →
      f.addr ∉ tables root s.mem →
      LinkStep pt root to_ s
        ⟨RadixTree.link s.mem n i (PageTableEntry.ofAddr f flagsRwx) f.addr
          PageTableEntry.new, a'⟩

/-- `n` link steps in a row. -/
inductive Links (pt : RecursivePageTable) (root : PhysAddr) (to_ : VirtAddr) :
    Nat → PagingState σ → PagingState σ → Prop where
  | refl (s : PagingState σ) : Links pt root to_ 0 s s
  | step {n : Nat} {s s₁ s' : PagingState σ} :
      LinkStep pt root to_ s s₁ → Links pt root to_ n s₁ s' →
      Links pt root to_ (n + 1) s s'

variable {to_ : VirtAddr} {s s' : PagingState σ}

/-- Below an unused entry there is no table. -/
theorem walk_below_unused {p q : List (Fin 512)} {i : Fin 512} {n : Nat}
    (hp : tablePath to_ = p ++ i :: q) (hn : walk child mem root.addr p = some n)
    (hi : mem n i = PageTableEntry.new) :
    walk child mem root.addr (tablePath to_) = none := by
  rw [hp, walk_append, hn]
  show walk child mem n (i :: q) = none
  rw [walk_cons, hi]
  rfl

/-- A link step is only made while the level-1 table is missing. -/
theorem links_missing {n : Nat} (h : Links pt root to_ n s s') (hpos : 0 < n) :
    walk child s.mem root.addr (tablePath to_) = none := by
  cases h with
  | refl s => exact absurd hpos (Nat.lt_irrefl 0)
  | step hstep _ =>
      cases hstep with
      | fail hw _ => exact hw
      | link hp hn hi _ _ _ _ => exact walk_below_unused hp hn hi

theorem linkable {p q : List (Fin 512)} {i : Fin 512} {n : Nat} {f : PhysAddr}
    (hto : pageIndex 4 to_ ≠ RECURSIVE) (hp : tablePath to_ = p ++ i :: q)
    (hn : walk child mem root.addr p = some n) (hi : mem n i = PageTableEntry.new)
    (hal : f.addr % PAGE_SIZE = 0) (hfr : f.addr ∉ tables root mem) :
    Linkable child mem root.addr tablePaths p n i (PageTableEntry.ofAddr f flagsRwx)
      f.addr PageTableEntry.new where
  path := tablePath_prefix_mem (q := q) hto (by simp [hp])
  node := hn
  empty := by rw [hi]; rfl
  entry := child_ofAddr hal flagsRwx_present
  zero := rfl
  fresh := hfr

/-- Linking keeps the tree. -/
theorem treeWF_link (hwf : TreeWF pt root mem) {p : List (Fin 512)} {i : Fin 512}
    {n : Nat} {f : PhysAddr}
    (hl : Linkable child mem root.addr tablePaths p n i
      (PageTableEntry.ofAddr f flagsRwx) f.addr PageTableEntry.new)
    (hal : f.addr % PAGE_SIZE = 0) (hcan : IsCanonical (f.addr + pt.internalOffset)) :
    TreeWF pt root (RadixTree.link mem n i (PageTableEntry.ofAddr f flagsRwx) f.addr
      PageTableEntry.new) := by
  have hp : p ∈ tablePaths := prefixClosed_tablePaths p i hl.path
  refine ⟨hwf.lvl4, hwf.offset, ?_, ?_, ?_, ?_⟩
  · exact unshared_link prefixClosed_tablePaths hwf.unshared hl
  · -- the recursive slot is not the entry written: its path is left out
    have hrf : root.addr ≠ f.addr := fun h => hl.fresh (h ▸ TreeWF.root_mem)
    have hor : root.addr ≠ n ∨ RECURSIVE ≠ i := by
      by_cases hrn : root.addr = n
      · right
        intro hrec
        have hnil : p = [] := hwf.unshared p [] root.addr hp nil_mem_tablePaths
          (hrn ▸ hl.node) rfl
        have hpath := hl.path.2
        rw [hnil, ← hrec] at hpath
        exact hpath rfl
      · exact Or.inl hrn
    rw [RadixTree.link, clear_of_ne _ _ hrf, setEntry_of_ne _ hor]
    exact hwf.slot
  · intro q m j hqj hm
    have hq : q ∈ tablePaths := prefixClosed_tablePaths q j hqj
    rw [walk_link prefixClosed_tablePaths hwf.unshared hl hq] at hm
    by_cases hqp : q = p ++ [i]
    · rw [if_pos hqp] at hm
      cases hm
      left
      rw [RadixTree.link, clear_same]
    · rw [if_neg hqp] at hm
      have hmf : m ≠ f.addr := fun h => hl.fresh ⟨q, hq, h ▸ hm⟩
      rw [RadixTree.link, clear_of_ne _ _ hmf]
      by_cases hmn : m = n ∧ j = i
      · obtain ⟨rfl, rfl⟩ := hmn
        right
        exact ⟨f, hal, setEntry_same m j _⟩
      · have hor : m ≠ n ∨ j ≠ i := by
          by_cases h : m = n
          · exact Or.inr fun hj => hmn ⟨h, hj⟩
          · exact Or.inl h
        rw [setEntry_of_ne _ hor]
        exact hwf.inner q m j hqj hm
  · intro m hm
    rw [tables, reached_link prefixClosed_tablePaths hwf.unshared hl] at hm
    rcases hm with rfl | hm
    · exact ⟨hal, f.valid, hcan⟩
    · exact hwf.reach m hm

/-- Linking a table does not change what is mapped. -/
theorem leafEntry_link (hwf : TreeWF pt root mem) {p : List (Fin 512)} {i : Fin 512}
    {n : Nat} {f : PhysAddr} (e : PageTableEntry)
    (hl : Linkable child mem root.addr tablePaths p n i e f.addr PageTableEntry.new)
    {v : VirtAddr} (hv : pageIndex 4 v ≠ RECURSIVE) :
    leafEntry root (RadixTree.link mem n i e f.addr PageTableEntry.new) v
      = leafEntry root mem v := by
  have hp : p ∈ tablePaths := prefixClosed_tablePaths p i hl.path
  have hwalk := walk_link prefixClosed_tablePaths hwf.unshared hl (tablePath_mem hv)
  by_cases hvp : tablePath v = p ++ [i]
  · -- the new table is the level-1 table of `v`, and it is empty
    rw [if_pos hvp] at hwalk
    have hold : walk child mem root.addr (tablePath v) = none := by
      rw [hvp, walk_snoc, hl.node]
      exact hl.empty
    rw [leafEntry_of_walk hwalk, leafEntry_of_no_table hold, RadixTree.link,
      clear_same]
    rfl
  · rw [if_neg hvp] at hwalk
    cases hm : walk child mem root.addr (tablePath v) with
    | none => rw [leafEntry_of_no_table hm, leafEntry_of_no_table (hwalk.trans hm)]
    | some m =>
        have hmf : m ≠ f.addr := fun h => hl.fresh ⟨_, tablePath_mem hv, h ▸ hm⟩
        have hmn : m ≠ n := by
          rintro rfl
          have hpath := hwf.unshared _ _ m (tablePath_mem hv) hp hm hl.node
          have hbad := hl.path
          rw [← hpath] at hbad
          exact tablePath_snoc_notMem v i hbad
        rw [leafEntry_of_walk hm, leafEntry_of_walk (hwalk.trans hm), RadixTree.link,
          clear_of_ne _ _ hmf, setEntry_of_ne e (Or.inl hmn)]

/-- What `n` calls of the allocator by `map` keep: the tree, everything that is
    mapped, and the allocator's contract for the calls still to come. -/
structure Preserved (pt : RecursivePageTable) (root : PhysAddr) (n : Nat)
    (s s' : PagingState σ) : Prop where
  wf : TreeWF pt root s'.mem
  walks : ∀ p ∈ tablePaths, ∀ m, walk child s.mem root.addr p = some m →
    walk child s'.mem root.addr p = some m
  leaf : ∀ v, pageIndex 4 v ≠ RECURSIVE →
    leafEntry root s'.mem v = leafEntry root s.mem v
  fresh : ∀ k, Fresh (k + n) (tables root s.mem) s.alloc →
    Fresh k (tables root s'.mem) s'.alloc
  live : ∀ k, Live pt.internalOffset (k + n) s.alloc →
    Live pt.internalOffset k s'.alloc
  neverFails : ∀ k, NeverFails (k + n) s.alloc → NeverFails k s'.alloc

theorem linkStep_preserved (hto : pageIndex 4 to_ ≠ RECURSIVE)
    (hwf : TreeWF pt root s.mem) (h : LinkStep pt root to_ s s') :
    Preserved pt root 1 s s' := by
  cases h with
  | @fail e a' _ ha =>
      refine ⟨hwf, fun _ _ _ h => h, fun v _ => rfl, ?_, ?_, ?_⟩
      · intro k hf
        exact hf _ _ ha
      · rintro k ⟨r, a₁, ha₁, hl, -⟩
        cases ha.symm.trans ha₁
        exact hl
      · rintro k ⟨f, a₁, ha₁, -⟩
        cases ha.symm.trans ha₁
  | @link p q i n f a' hp hn hi ha hal hcan hfr =>
      have hl := linkable hto hp hn hi hal hfr
      refine ⟨treeWF_link hwf hl hal hcan,
        fun p hp m hm => walk_link_mono prefixClosed_tablePaths hwf.unshared hl hp hm,
        fun v hv => leafEntry_link hwf _ hl hv, ?_, ?_, ?_⟩
      · intro k hf
        rw [tables, reached_link prefixClosed_tablePaths hwf.unshared hl]
        exact (hf _ _ ha).2
      · rintro k ⟨r, a₁, ha₁, hlive, -⟩
        cases ha.symm.trans ha₁
        exact hlive
      · rintro k ⟨f', a₁, ha₁, hn'⟩
        cases ha.symm.trans ha₁
        exact hn'

theorem links_preserved (hto : pageIndex 4 to_ ≠ RECURSIVE) {n : Nat}
    (h : Links pt root to_ n s s') :
    TreeWF pt root s.mem → Preserved pt root n s s' := by
  induction h with
  | refl s =>
      exact fun hwf => ⟨hwf, fun _ _ _ h => h, fun v _ => rfl, fun k h => h,
        fun k h => h, fun k h => h⟩
  | @step n s s₁ s' hstep _ ih =>
      intro hwf
      have h₁ := linkStep_preserved hto hwf hstep
      have h₂ := ih h₁.wf
      refine ⟨h₂.wf, fun p hp m hm => h₂.walks p hp m (h₁.walks p hp m hm),
        fun v hv => (h₂.leaf v hv).trans (h₁.leaf v hv), ?_, ?_, ?_⟩
      · exact fun k hf => h₂.fresh k (h₁.fresh (k + n) hf)
      · exact fun k hf => h₂.live k (h₁.live (k + n) hf)
      · exact fun k hf => h₂.neverFails k (h₁.neverFails (k + n) hf)

/-! ## Creating the missing tables -/

/-- The state after frame `f` became the table under entry `i` of `n`. -/
def linkState (s : PagingState σ) (n : Nat) (i : Fin 512) (f : PhysAddr) (a' : σ) :
    PagingState σ :=
  ⟨RadixTree.link s.mem n i (PageTableEntry.ofAddr f flagsRwx) f.addr
    PageTableEntry.new, a'⟩

/-- One round of the creation loop, inverted. -/
theorem createLevels_cons_cases {level : Nat} {rest : List Nat}
    {current : VirtAddr} {r : Except PagingError VirtAddr}
    (h1 : 1 ≤ level) (h4 : level ≤ 4)
    (h : pt.createLevels to_ (level :: rest) current s = .ok (r, s')) :
    s.mem (pt.frameOf current) (pageIndex level to_) = PageTableEntry.new ∧
      ((∃ e a', FrameAllocator.alloc s.alloc = .ok (.error e, a')
          ∧ r = .error .tableAllocationFailed ∧ s' = ⟨s.mem, a'⟩)
        ∨ ∃ f a' next, FrameAllocator.alloc s.alloc = .ok (.ok f, a')
          ∧ f.addr % PAGE_SIZE = 0 ∧ next.addr = f.addr + pt.internalOffset
          ∧ pt.createLevels to_ rest next
              (linkState s (pt.frameOf current) (pageIndex level to_) f a')
            = .ok (r, s')) := by
  rw [RecursivePageTable.createLevels, getPageIndex_eq h1 h4, ok_bind] at h
  by_cases hu : (s.mem (pt.frameOf current) (pageIndex level to_)).isUnused = true
  · rw [if_pos hu] at h
    refine ⟨isUnused_iff.mp hu, ?_⟩
    obtain ⟨⟨answer, a'⟩, ha, h⟩ := bind_eq_ok.mp h
    cases answer with
    | error e =>
        left
        cases h
        exact ⟨e, a', ha, rfl, rfl⟩
    | ok f =>
        right
        obtain ⟨entry, hentry, h⟩ := bind_eq_ok.mp h
        obtain ⟨hal, rfl⟩ := PageTableEntry.setAddr_eq_ok.mp hentry
        obtain ⟨next, hnext, h⟩ := bind_eq_ok.mp h
        obtain ⟨mem', hmem, h⟩ := bind_eq_ok.mp h
        rw [PageTableEntry.addr_ofAddr flagsRwx hal] at hnext
        have hfr := RecursivePageTable.frameOf_physPageTableAsVirt hnext
        have haddr := VirtAddr.new_eq_ok.mp hnext
        refine ⟨f, a', next, ha, hal, haddr, ?_⟩
        unfold RecursivePageTable.newPageTableLevel at hmem
        split at hmem
        · cases hmem
          rw [linkState, RadixTree.link, ← hfr]
          exact h
        · cases hmem
  · rw [if_neg hu] at h
    cases h

/-- One round of the creation loop with a usable frame. -/
theorem createLevels_cons_ok {level : Nat} {rest : List Nat} {current : VirtAddr}
    (h1 : 1 ≤ level) (h4 : level ≤ 4)
    (hu : s.mem (pt.frameOf current) (pageIndex level to_) = PageTableEntry.new)
    {f : PhysAddr} {a' : σ} (ha : FrameAllocator.alloc s.alloc = .ok (.ok f, a'))
    (hal : f.addr % PAGE_SIZE = 0) (hoff : pt.internalOffset % PAGE_SIZE = 0)
    (hcan : IsCanonical (f.addr + pt.internalOffset)) :
    pt.createLevels to_ (level :: rest) current s
      = pt.createLevels to_ rest ⟨f.addr + pt.internalOffset, hcan⟩
          (linkState s (pt.frameOf current) (pageIndex level to_) f a') := by
  have hentry : PageTableEntry.setAddr f flagsRwx = .ok (.ofAddr f flagsRwx) :=
    PageTableEntry.setAddr_eq_ok.mpr ⟨hal, rfl⟩
  have hnext : pt.physPageTableAsVirt (PageTableEntry.ofAddr f flagsRwx).addr
      = .ok ⟨f.addr + pt.internalOffset, hcan⟩ := by
    rw [PageTableEntry.addr_ofAddr flagsRwx hal]
    exact VirtAddr.new_eq_ok.mpr rfl
  have hmem : RecursivePageTable.newPageTableLevel
      (setEntry s.mem (pt.frameOf current) (pageIndex level to_)
        (PageTableEntry.ofAddr f flagsRwx)) pt.internalOffset
        ⟨f.addr + pt.internalOffset, hcan⟩
      = .ok (linkState s (pt.frameOf current) (pageIndex level to_) f a').mem := by
    have halign : (f.addr + pt.internalOffset) % PAGE_SIZE = 0 := by
      unfold PAGE_SIZE at *
      omega
    rw [RecursivePageTable.newPageTableLevel, if_pos halign, linkState, RadixTree.link,
      Nat.add_sub_cancel]
  rw [RecursivePageTable.createLevels, getPageIndex_eq h1 h4, ok_bind,
    if_pos (isUnused_iff.mpr hu), ha, ok_bind]
  show (PageTableEntry.setAddr f flagsRwx >>= _) = _
  rw [hentry, ok_bind, hnext, ok_bind, hmem, ok_bind]
  rfl

/-- One round of the creation loop when the allocator fails. -/
theorem createLevels_cons_fail {level : Nat} {rest : List Nat} {current : VirtAddr}
    (h1 : 1 ≤ level) (h4 : level ≤ 4)
    (hu : s.mem (pt.frameOf current) (pageIndex level to_) = PageTableEntry.new)
    {e : MemoryError} {a' : σ}
    (ha : FrameAllocator.alloc s.alloc = .ok (.error e, a')) :
    pt.createLevels to_ (level :: rest) current s
      = .ok (.error .tableAllocationFailed, ⟨s.mem, a'⟩) := by
  rw [RecursivePageTable.createLevels, getPageIndex_eq h1 h4, ok_bind,
    if_pos (isUnused_iff.mpr hu), ha, ok_bind]
  rfl

end Linking

end KermolPageTree
