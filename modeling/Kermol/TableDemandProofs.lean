import Kermol.ContiguousProofs
import Kermol.RecursiveSlotProofs

/-! # What a mapping takes from the allocator

    `map` takes one frame for each table that is missing on the way to its page,
    and several `map`s take one for each table that their pages need and that
    does not exist yet.  The number can be read off the tables before the calls
    (`tablesMissing`).

    * `Granted` follows the answers of the allocator, `Linked` says what became
      of them;
    * `tablesMissing_append`: what is missing after a part of the pages is the
      rest of what was missing before;
    * `map_followed` and `map_granted`: what one `map` did with the frames it was
      given, and that it returns when it is given enough. -/

namespace KermolTableDemand

open RustEffect X86Paging KermolFrameAllocator KermolPageTable KermolPageTree
open KermolMapStep KermolPageTableRun KermolBootTables KermolContiguous
open KermolRecursiveSlot RadixTree

/-! ## The answers of the allocator -/

section Grants

variable {σ : Type} [FrameAllocator σ] {offset n : Nat} {gs hs : List PhysAddr} {a a' a₁ : σ}
  {used : Set Nat}

/-- The next calls of `alloc` hand out the frames `gs`, and each of them can hold
    a table: it is page aligned and has an address in the direct map. -/
def Granted (offset : Nat) : List PhysAddr → σ → σ → Prop
  | [], a, a' => a' = a
  | g :: gs, a, a' => ∃ a₁, FrameAllocator.alloc a = .ok (.ok g, a₁)
      ∧ g.addr % PAGE_SIZE = 0 ∧ IsCanonical (g.addr + offset) ∧ Granted offset gs a₁ a'

/-- A call of `alloc` answers with an error. -/
def Failed (a a' : σ) : Prop := ∃ e, FrameAllocator.alloc a = .ok (.error e, a')

/-- The next call of `alloc` answers with an error. -/
def Exhausted (a : σ) : Prop := ∃ a', Failed a a'

theorem granted_append :
    ∀ {gs : List PhysAddr} {a : σ}, Granted offset (gs ++ hs) a a'
      ↔ ∃ a₁, Granted offset gs a a₁ ∧ Granted offset hs a₁ a' := by
  intro gs
  induction gs with
  | nil => simp [Granted]
  | cons g gs ih =>
      intro a
      simp only [List.cons_append, Granted, ih]
      constructor
      · rintro ⟨a₁, ha, hal, hcan, a₂, h₁, h₂⟩
        exact ⟨a₂, ⟨a₁, ha, hal, hcan, h₁⟩, h₂⟩
      · rintro ⟨a₂, ⟨a₁, ha, hal, hcan, h₁⟩, h₂⟩
        exact ⟨a₁, ha, hal, hcan, a₂, h₁, h₂⟩

/-- The answers are determined by their number. -/
theorem Granted.unique {b : σ} :
    ∀ {gs hs : List PhysAddr} {a : σ}, Granted offset gs a a' → Granted offset hs a b →
      gs.length = hs.length → gs = hs ∧ a' = b := by
  intro gs
  induction gs with
  | nil =>
      intro hs a h h' hlen
      cases List.length_eq_zero_iff.mp hlen.symm
      exact ⟨rfl, h.trans h'.symm⟩
  | cons g gs ih =>
      intro hs a h h' hlen
      cases hs with
      | nil => cases hlen
      | cons g' hs =>
          obtain ⟨a₁, ha, -, -, h₁⟩ := h
          obtain ⟨a₂, ha', -, -, h₂⟩ := h'
          cases ha.symm.trans ha'
          obtain ⟨rfl, rfl⟩ := ih h₁ h₂ (Nat.succ.inj hlen)
          exact ⟨rfl, rfl⟩

/-- Some of the answers come first. -/
theorem Granted.split {k : Nat} (h : Granted offset gs a a') (hk : k ≤ gs.length) :
    ∃ g₁ g₂ a₁, gs = g₁ ++ g₂ ∧ g₁.length = k ∧ Granted offset g₁ a a₁
      ∧ Granted offset g₂ a₁ a' := by
  rw [← List.take_append_drop k gs, granted_append] at h
  obtain ⟨a₁, h₁, h₂⟩ := h
  exact ⟨_, _, a₁, (List.take_append_drop k gs).symm, List.length_take_of_le hk, h₁, h₂⟩

/-- An allocator that hands out more frames has not answered with an error. -/
theorem Granted.not_exhausted {b : σ} (h : Granted offset gs a a') (h' : Granted offset hs a b)
    (hlt : hs.length < gs.length) : ¬ Exhausted b := by
  obtain ⟨g₁, g₂, a₁, rfl, hlen, h₁, h₂⟩ := h.split (Nat.le_of_lt hlt)
  obtain ⟨rfl, rfl⟩ := h₁.unique h' hlen
  rintro ⟨a₂, e, herr⟩
  cases g₂ with
  | nil => simp at hlt
  | cons g g₂ =>
      obtain ⟨a₃, hok, -⟩ := h₂
      cases herr.symm.trans hok

/-- The places of frames. -/
def placesOf (gs : List PhysAddr) : Set Nat := {n | ∃ g ∈ gs, g.addr = n}

/-- The first `n` frames that can hold a table are distinct and avoid `used`. -/
def FreshGrants (offset n : Nat) (used : Set Nat) (a : σ) : Prop :=
  ∀ gs a', Granted offset gs a a' → gs.length ≤ n →
    (gs.map PhysAddr.addr).Nodup ∧ ∀ g ∈ gs, g.addr ∉ used

theorem FreshGrants.mono {m : Nat} (h : FreshGrants offset n used a) (hle : m ≤ n) :
    FreshGrants offset m used a :=
  fun gs a' hg hlen => h gs a' hg (hlen.trans hle)

theorem FreshGrants.after (h : FreshGrants offset (gs.length + n) used a)
    (hg : Granted offset gs a a₁) : FreshGrants offset n (used ∪ placesOf gs) a₁ := by
  intro hs a' hh hlen
  obtain ⟨hnodup, hout⟩ := h (gs ++ hs) a' (granted_append.mpr ⟨a₁, hg, hh⟩)
    (by rw [List.length_append]; omega)
  rw [List.map_append, List.nodup_append] at hnodup
  refine ⟨hnodup.2.1, fun g hgs hin => ?_⟩
  rcases hin with hin | ⟨g', hg', heq⟩
  · exact hout g (List.mem_append_right _ hgs) hin
  · exact hnodup.2.2 _ (List.mem_map_of_mem hg') _ (List.mem_map_of_mem hgs) heq

theorem placesOf_singleton (g : PhysAddr) : placesOf [g] = {g.addr} := by
  ext n
  simp [placesOf, eq_comm]

theorem placesOf_append : placesOf (gs ++ hs) = placesOf gs ∪ placesOf hs := by
  ext n
  simp only [placesOf, Set.mem_ofPred_eq, List.mem_append, Set.mem_union]
  grind

end Grants

/-! ## Linked tables -/

section Link

variable {σ : Type} [FrameAllocator σ] {pt : RecursivePageTable} {root : PhysAddr}
  {s s₁ s' : PagingState σ} {v : VirtAddr} {as bs : List Nat} {gs hs : List PhysAddr}

/-- The frames `gs` became tables on the way to the addresses `as`. -/
structure Linked (pt : RecursivePageTable) (root : PhysAddr) (as : List Nat)
    (gs : List PhysAddr) (s s' : PagingState σ) : Prop where
  wf : TreeWF pt root s'.mem
  granted : Granted pt.internalOffset gs s.alloc s'.alloc
  tables_eq : tables root s'.mem = tables root s.mem ∪ placesOf gs
  fresh : ∀ g ∈ gs, g.addr ∉ tables root s.mem
  walks : ∀ p ∈ tablePaths, ∀ m, walk child s.mem root.addr p = some m →
    walk child s'.mem root.addr p = some m
  paths : ∀ p ∈ tablePaths, Present root s'.mem p →
    Present root s.mem p ∨ ∃ v : VirtAddr, v.addr ∈ as ∧ p <+: tablePath v

theorem Linked.refl (as : List Nat) (hwf : TreeWF pt root s.mem) : Linked pt root as [] s s where
  wf := hwf
  granted := rfl
  tables_eq := by simp [placesOf]
  fresh := nofun
  walks := fun _ _ _ h => h
  paths := fun _ _ h => Or.inl h

theorem Linked.trans (h₁ : Linked pt root as gs s s₁) (h₂ : Linked pt root bs hs s₁ s') :
    Linked pt root (as ++ bs) (gs ++ hs) s s' where
  wf := h₂.wf
  granted := granted_append.mpr ⟨_, h₁.granted, h₂.granted⟩
  tables_eq := by
    rw [h₂.tables_eq, h₁.tables_eq, placesOf_append, Set.union_assoc]
  fresh := by
    intro g hg hin
    rcases List.mem_append.mp hg with hg | hg
    · exact h₁.fresh g hg hin
    · exact h₂.fresh g hg (h₁.tables_eq ▸ Or.inl hin)
  walks := fun p hp m hm => h₂.walks p hp m (h₁.walks p hp m hm)
  paths := by
    intro p hp h
    rcases h₂.paths p hp h with h | ⟨v, hv, hpre⟩
    · rcases h₁.paths p hp h with h | ⟨v, hv, hpre⟩
      · exact Or.inl h
      · exact Or.inr ⟨v, List.mem_append_left _ hv, hpre⟩
    · exact Or.inr ⟨v, List.mem_append_right _ hv, hpre⟩

theorem Linked.mono (h : Linked pt root as gs s s') (hsub : as ⊆ bs) :
    Linked pt root bs gs s s' where
  wf := h.wf
  granted := h.granted
  tables_eq := h.tables_eq
  fresh := h.fresh
  walks := h.walks
  paths := by
    intro p hp hpresent
    rcases h.paths p hp hpresent with h | ⟨v, hv, hpre⟩
    · exact Or.inl h
    · exact Or.inr ⟨v, hsub hv, hpre⟩

/-- One table, under an unused entry on the way to `v`. -/
theorem linked_link (hv : pageIndex 4 v ≠ RECURSIVE) (hwf : TreeWF pt root s.mem)
    {p q : List (Fin 512)} {i : Fin 512} {n : Nat} {f : PhysAddr} {a' : σ}
    (hp : tablePath v = p ++ i :: q) (hn : walk child s.mem root.addr p = some n)
    (hi : s.mem n i = PageTableEntry.new)
    (ha : FrameAllocator.alloc s.alloc = .ok (.ok f, a')) (hal : f.addr % PAGE_SIZE = 0)
    (hcan : IsCanonical (f.addr + pt.internalOffset)) (hfr : f.addr ∉ tables root s.mem) :
    Linked pt root [v.addr] [f] s (linkState s n i f a') := by
  have hl := linkable hv hp hn hi hal hfr
  have hun := hwf.unshared
  refine ⟨treeWF_link hwf hl hal hcan, ⟨a', ha, hal, hcan, rfl⟩, ?_, ?_, ?_, ?_⟩
  · rw [placesOf_singleton, Set.union_singleton]
    exact reached_link prefixClosed_tablePaths hun hl
  · intro g hg
    rw [List.mem_singleton.mp hg]
    exact hfr
  · exact fun p hp m hm => walk_link_mono prefixClosed_tablePaths hun hl hp hm
  · rintro p' hp' ⟨m, hm⟩
    rw [linkState, walk_link prefixClosed_tablePaths hun hl hp'] at hm
    split at hm
    · next heq =>
        refine Or.inr ⟨v, List.mem_singleton.mpr rfl, ?_⟩
        rw [heq, hp]
        exact ⟨q, by simp⟩
    · exact Or.inl ⟨m, hm⟩

/-- A leaf entry links nothing. -/
theorem linked_leaf (hv : pageIndex 4 v ≠ RECURSIVE) (hwf : TreeWF pt root s.mem) {t : Nat}
    (ht : walk child s.mem root.addr (tablePath v) = some t) (e : PageTableEntry) :
    Linked pt root as [] s ⟨setEntry s.mem t (pageIndex 1 v) e, s.alloc⟩ where
  wf := treeWF_leaf hwf hv ht e
  granted := rfl
  tables_eq := by
    rw [tables_leaf hwf hv ht e]
    simp [placesOf]
  fresh := nofun
  walks := by
    intro p hp m hm
    rwa [walk_setEntry_leaf prefixClosed_tablePaths hwf.unshared e (tablePath_mem hv)
      ht (tablePath_snoc_notMem v _) hp]
  paths := fun _ hp h => Or.inl ((present_leaf hwf hv ht e hp).mp h)

end Link

/-! ## Counting -/

section Count

variable {pt : RecursivePageTable} {root : PhysAddr} {mem : PhysMem} {v : VirtAddr}
  {as bs : List Nat}

/-- The tables that the addresses need and that do not exist, as level and number
    of the block they cover. -/
def missingBlocks (root : PhysAddr) (mem : PhysMem) (as : List Nat) : Finset (Nat × Nat) :=
  (blocks as).filter fun b => walk child mem root.addr (blockPath b) = none

/-- How many tables the addresses need and do not have. -/
def tablesMissing (root : PhysAddr) (mem : PhysMem) (as : List Nat) : Nat :=
  (missingBlocks root mem as).card

theorem mem_missingBlocks {b : Nat × Nat} :
    b ∈ missingBlocks root mem as
      ↔ (∃ a ∈ as, b ∈ tableBlocks a) ∧ walk child mem root.addr (blockPath b) = none := by
  rw [missingBlocks, Finset.mem_filter, mem_blocks]

theorem not_present_iff {p : List (Fin 512)} :
    ¬ Present root mem p ↔ walk child mem root.addr p = none := by
  rw [Present, ← Option.isSome_iff_exists, Option.not_isSome_iff_eq_none]

/-- Where a walk has stopped, it does not go on. -/
theorem walk_take_none {j k : Nat} (hjk : j ≤ k)
    (h : walk child mem root.addr ((tablePath v).take j) = none) :
    walk child mem root.addr ((tablePath v).take k) = none := by
  have hsplit : (tablePath v).take k
      = (tablePath v).take j ++ ((tablePath v).take k).drop j := by
    conv_lhs => rw [← List.take_append_drop j ((tablePath v).take k), List.take_take]
    rw [Nat.min_eq_left hjk]
  rw [hsplit, walk_append, h]
  rfl

/-- The level at which `map` finds a table says how many are missing below. -/
theorem tablesMissing_one {level : Nat} {table : VirtAddr}
    (hf : FoundAt pt root v mem level table) : tablesMissing root mem [v.addr] = level - 1 := by
  have hlow := hf.low
  have hhigh := hf.high
  have hnone (j : Nat) (hj : j ≤ 3) :
      walk child mem root.addr ((tablePath v).take j) = none ↔ 5 ≤ level + j := by
    constructor
    · intro hnone
      by_contra hlt
      have hstop := walk_take_none (show j ≤ 4 - level by omega) hnone
      rw [hf.found] at hstop
      cases hstop
    · intro hge
      exact walk_take_none (by omega) (hf.missing (by omega))
  have h₁ : blockPath (3, v.addr / 2 ^ 39) = (tablePath v).take 1 := rfl
  have h₂ : blockPath (2, v.addr / 2 ^ 30) = (tablePath v).take 2 := blockPath_two v
  have h₃ : blockPath (1, v.addr / 2 ^ 21) = (tablePath v).take 3 := blockPath_one v
  have hblocks : blocks [v.addr]
      = {(3, v.addr / 2 ^ 39), (2, v.addr / 2 ^ 30), (1, v.addr / 2 ^ 21)} := by
    simp [blocks, tableBlocks]
  rw [tablesMissing, missingBlocks, hblocks]
  generalize v.addr / 2 ^ 39 = x₃ at h₁
  generalize v.addr / 2 ^ 30 = x₂ at h₂
  generalize v.addr / 2 ^ 21 = x₁ at h₃
  rcases show level = 1 ∨ level = 2 ∨ level = 3 ∨ level = 4 by omega with
    rfl | rfl | rfl | rfl <;>
    simp [Finset.filter_insert, Finset.filter_singleton, h₁, h₂, h₃, hnone]

theorem tablesMissing_mono (hsub : as ⊆ bs) : tablesMissing root mem as ≤ tablesMissing root mem bs := by
  refine Finset.card_le_card fun b hb => ?_
  obtain ⟨⟨a, ha, hba⟩, hw⟩ := mem_missingBlocks.mp hb
  exact mem_missingBlocks.mpr ⟨⟨a, hsub ha, hba⟩, hw⟩

/-- Addresses outside the recursive slot. -/
def Outside (as : List Nat) : Prop := ∀ a ∈ as, ∃ v : VirtAddr, v.addr = a ∧ pageIndex 4 v ≠ RECURSIVE

/-- Addresses whose level-1 tables exist. -/
def Reached (root : PhysAddr) (mem : PhysMem) (as : List Nat) : Prop :=
  ∀ a ∈ as, ∃ v : VirtAddr, v.addr = a ∧ Present root mem (tablePath v)

theorem block_mem_tablePaths (h : Outside as) {b : Nat × Nat} {a : Nat} (ha : a ∈ as)
    (hb : b ∈ tableBlocks a) : blockPath b ∈ tablePaths := by
  obtain ⟨v, rfl, hv⟩ := h a ha
  obtain ⟨q, hq⟩ : blockPath b <+: tablePath v := prefix_tablePath.mpr (Or.inr ⟨b, hb, rfl⟩)
  exact tablePath_prefix_mem hv hq.symm

variable {σ : Type} [FrameAllocator σ] {s s₁ : PagingState σ} {gs : List PhysAddr}

/-- **WHAT IS MISSING AFTER A PART OF THE REQUEST** is the rest of what was
    missing before. -/
theorem tablesMissing_append (h : Linked pt root as gs s s₁) (hreached : Reached root s₁.mem as)
    (hout : Outside bs) :
    tablesMissing root s.mem (as ++ bs)
      = tablesMissing root s.mem as + tablesMissing root s₁.mem bs := by
  have hthere {a : Nat} {b : Nat × Nat} (ha : a ∈ as) (hb : b ∈ tableBlocks a) :
      Present root s₁.mem (blockPath b) := by
    obtain ⟨v, rfl, m, hm⟩ := hreached a ha
    obtain ⟨q, hq⟩ : blockPath b <+: tablePath v := prefix_tablePath.mpr (Or.inr ⟨b, hb, rfl⟩)
    rw [← hq] at hm
    exact walk_prefix hm
  have hdisjoint : Disjoint (missingBlocks root s.mem as) (missingBlocks root s₁.mem bs) := by
    rw [Finset.disjoint_left]
    intro b hb hb'
    obtain ⟨⟨a, ha, hba⟩, -⟩ := mem_missingBlocks.mp hb
    exact not_present_iff.mpr (mem_missingBlocks.mp hb').2 (hthere ha hba)
  rw [tablesMissing, tablesMissing, tablesMissing, ← Finset.card_union_of_disjoint hdisjoint]
  congr 1
  ext b
  rw [Finset.mem_union, mem_missingBlocks, mem_missingBlocks, mem_missingBlocks]
  constructor
  · rintro ⟨⟨a, ha, hba⟩, hw⟩
    rcases List.mem_append.mp ha with ha | ha
    · exact Or.inl ⟨⟨a, ha, hba⟩, hw⟩
    by_cases hpresent : Present root s₁.mem (blockPath b)
    -- it is there by now, so it was linked on the way to one of `as`
    · left
      refine ⟨?_, hw⟩
      rcases h.paths _ (block_mem_tablePaths hout ha hba) hpresent with hold | ⟨w, hw', hpre⟩
      · exact absurd hold (not_present_iff.mpr hw)
      rcases prefix_tablePath.mp hpre with hnil | ⟨c, hc, heq⟩
      · exact absurd hnil (blockPath_ne_nil b)
      · obtain ⟨v, rfl, -⟩ := hout a ha
        exact ⟨w.addr, hw', blockPath_injective hc hba heq ▸ hc⟩
    · exact Or.inr ⟨⟨a, ha, hba⟩, not_present_iff.mp hpresent⟩
  · rintro (⟨⟨a, ha, hba⟩, hw⟩ | ⟨⟨a, ha, hba⟩, hw⟩)
    · exact ⟨⟨a, List.mem_append_left _ ha, hba⟩, hw⟩
    · refine ⟨⟨a, List.mem_append_right _ ha, hba⟩, not_present_iff.mp ?_⟩
      rintro ⟨m, hm⟩
      exact not_present_iff.mpr hw ⟨m, h.walks _ (block_mem_tablePaths hout ha hba) m hm⟩

end Count

/-! ## One `map` -/

section Map

variable {σ : Type} [FrameAllocator σ] {pt : RecursivePageTable} {root : PhysAddr}
  {from_ : PhysAddr} {to_ : VirtAddr} {flags : PageTableFlags} {s s₁ s' : PagingState σ}
  {as : List Nat} {gs hs : List PhysAddr}

/-- The frames `gs` became tables, and nothing else happened. -/
structure Created (pt : RecursivePageTable) (root : PhysAddr) (as : List Nat)
    (gs : List PhysAddr) (s s' : PagingState σ) : Prop extends Linked pt root as gs s s' where
  leaves : ∀ v, pageIndex 4 v ≠ RECURSIVE →
    leafEntry root s'.mem v = leafEntry root s.mem v
  quiet : gs = [] → s'.mem = s.mem

theorem Created.refl (as : List Nat) (hwf : TreeWF pt root s.mem) :
    Created pt root as [] s s :=
  ⟨Linked.refl as hwf, fun _ _ => rfl, fun _ => rfl⟩

theorem Created.trans (h₁ : Created pt root as gs s s₁) (h₂ : Created pt root as hs s₁ s') :
    Created pt root as (gs ++ hs) s s' where
  toLinked := (h₁.toLinked.trans h₂.toLinked).mono (by simp)
  leaves := fun v hv => (h₂.leaves v hv).trans (h₁.leaves v hv)
  quiet := by
    intro hnil
    obtain ⟨hg, hh⟩ := List.append_eq_nil_iff.mp hnil
    rw [h₂.quiet hh, h₁.quiet hg]

/-- One round of the creation loop. -/
theorem created_link (hto : pageIndex 4 to_ ≠ RECURSIVE) (hwf : TreeWF pt root s.mem)
    {p q : List (Fin 512)} {i : Fin 512} {n : Nat} {f : PhysAddr} {a' : σ}
    (hp : tablePath to_ = p ++ i :: q) (hn : walk child s.mem root.addr p = some n)
    (hi : s.mem n i = PageTableEntry.new)
    (ha : FrameAllocator.alloc s.alloc = .ok (.ok f, a')) (hal : f.addr % PAGE_SIZE = 0)
    (hcan : IsCanonical (f.addr + pt.internalOffset)) (hfr : f.addr ∉ tables root s.mem) :
    Created pt root [to_.addr] [f] s (linkState s n i f a') where
  toLinked := linked_link hto hwf hp hn hi ha hal hcan hfr
  leaves := fun _ hv => leafEntry_link hwf _ (linkable hto hp hn hi hal hfr) hv
  quiet := nofun

/-- An empty leaf entry for an unmapped page changes nothing. -/
theorem Created.leaf_quiet (h : Created pt root as gs s s₁) (hto : pageIndex 4 to_ ≠ RECURSIVE)
    (hnone : leafEntry root s.mem to_ = none) {t : Nat}
    (ht : walk child s₁.mem root.addr (tablePath to_) = some t) {e : PageTableEntry}
    (he : e = PageTableEntry.new) : setEntry s₁.mem t (pageIndex 1 to_) e = s₁.mem := by
  have hold : s₁.mem t (pageIndex 1 to_) = PageTableEntry.new := by
    have hleaf := h.leaves to_ hto
    rw [leafEntry_of_walk ht, hnone] at hleaf
    by_contra hused
    rw [if_neg (fun hu => hused (isUnused_iff.mp hu))] at hleaf
    cases hleaf
  rw [he, ← hold, setEntry, Function.update_eq_self, Function.update_eq_self]

/-- **CREATION, FOLLOWED.**  The creation loop links one frame for each level;
    it fails when the allocator does, with the frames before that linked. -/
theorem createLevels_created (hto : pageIndex 4 to_ ≠ RECURSIVE) {levels : List Nat}
    (hlv : ∀ l ∈ levels, 1 ≤ l ∧ l ≤ 4) :
    ∀ {p : List (Fin 512)} {current : VirtAddr} {s s' : PagingState σ}
      {r : Except PagingError VirtAddr},
      TreeWF pt root s.mem →
      FreshGrants pt.internalOffset levels.length (tables root s.mem) s.alloc →
      tablePath to_ = p ++ levels.map (fun l => pageIndex l to_) →
      walk child s.mem root.addr p = some (pt.frameOf current) →
      pt.createLevels to_ levels current s = .ok (r, s') →
      (∃ e gs a₁, r = .error e ∧ gs.length < levels.length
          ∧ Created pt root [to_.addr] gs s ⟨s'.mem, a₁⟩ ∧ Failed a₁ s'.alloc)
        ∨ ∃ current' gs, r = .ok current' ∧ gs.length = levels.length
          ∧ Created pt root [to_.addr] gs s s'
          ∧ walk child s'.mem root.addr (tablePath to_) = some (pt.frameOf current')
          ∧ (levels ≠ [] → ∀ j, s'.mem (pt.frameOf current') j = PageTableEntry.new) := by
  induction levels with
  | nil =>
      intro p current s s' r hwf _ hp hn h
      cases h
      rw [List.map_nil, List.append_nil] at hp
      exact Or.inr ⟨current, [], rfl, rfl, Created.refl _ hwf, by rw [hp, hn],
        fun hne => absurd rfl hne⟩
  | cons level rest ih =>
      intro p current s s' r hwf hfresh hp hn h
      obtain ⟨h1, h4⟩ := hlv level List.mem_cons_self
      obtain ⟨hu, hcase⟩ := createLevels_cons_cases h1 h4 h
      rw [List.map_cons] at hp
      rcases hcase with ⟨e, a', ha, rfl, rfl⟩ | ⟨f, a', next, ha, hal, hnext, h⟩
      · exact Or.inl ⟨_, [], s.alloc, rfl, Nat.succ_pos _, Created.refl _ hwf, e, ha⟩
      · have hcan : IsCanonical (f.addr + pt.internalOffset) := hnext ▸ next.canonical
        have hgrant : Granted pt.internalOffset [f] s.alloc a' := ⟨a', ha, hal, hcan, rfl⟩
        have hfr := (hfresh [f] a' hgrant (Nat.succ_le_succ (Nat.zero_le _))).2 f
          (List.mem_singleton.mpr rfl)
        have hdown := descend hwf hto hp hn hu ha hal hnext hfr
        have hfirst := created_link hto hwf hp hn hu ha hal hcan hfr
        have hfresh' : FreshGrants pt.internalOffset rest.length
            (tables root (linkState s (pt.frameOf current) (pageIndex level to_) f a').mem)
            a' := by
          rw [hfirst.tables_eq]
          exact FreshGrants.after (by rwa [List.length_singleton, Nat.add_comm]) hgrant
        rcases ih (fun l hl => hlv l (List.mem_cons_of_mem level hl)) hfirst.wf hfresh'
            (path_down hp) hdown.found h with
          ⟨e, gs, a₁, rfl, hlt, hcreated, hex⟩ | ⟨current', gs, rfl, hlen, hcreated, hw, hempty⟩
        · exact Or.inl ⟨e, [f] ++ gs, a₁, rfl, Nat.succ_lt_succ hlt, hfirst.trans hcreated, hex⟩
        · refine Or.inr ⟨current', [f] ++ gs, rfl, congrArg (· + 1) hlen,
            hfirst.trans hcreated, hw, fun _ => ?_⟩
          cases rest with
          | nil =>
              -- the table just linked is the level-1 table
              cases h
              exact hdown.empty
          | cons l rest' => exact hempty (List.cons_ne_nil l rest')

/-- The creation loop returns when the allocator hands out a frame for each
    level, or answers with an error before that. -/
theorem createLevels_granted (hto : pageIndex 4 to_ ≠ RECURSIVE) {levels : List Nat}
    (hlv : ∀ l ∈ levels, 1 ≤ l ∧ l ≤ 4) :
    ∀ {p : List (Fin 512)} {current : VirtAddr} {s : PagingState σ} {gs : List PhysAddr}
      {a' : σ}, TreeWF pt root s.mem →
      FreshGrants pt.internalOffset levels.length (tables root s.mem) s.alloc →
      tablePath to_ = p ++ levels.map (fun l => pageIndex l to_) →
      walk child s.mem root.addr p = some (pt.frameOf current) →
      (∀ l rest, levels = l :: rest →
        s.mem (pt.frameOf current) (pageIndex l to_) = PageTableEntry.new) →
      Granted pt.internalOffset gs s.alloc a' →
      (gs.length = levels.length ∨ gs.length < levels.length ∧ Exhausted a') →
      ∃ r s', pt.createLevels to_ levels current s = .ok (r, s') := by
  induction levels with
  | nil =>
      intro p current s gs a' _ _ _ _ _ _ _
      exact ⟨.ok current, s, rfl⟩
  | cons level rest ih =>
      intro p current s gs a' hwf hfresh hp hn hfirst hgrant hcount
      obtain ⟨h1, h4⟩ := hlv level List.mem_cons_self
      have hu := hfirst level rest rfl
      cases gs with
      | nil =>
          obtain ⟨a₁, e, ha⟩ : Exhausted s.alloc := by
            rcases hcount with hlen | ⟨-, hex⟩
            · cases hlen
            · cases hgrant
              exact hex
          exact ⟨_, _, createLevels_cons_fail h1 h4 hu ha⟩
      | cons f gs =>
          obtain ⟨a₁, ha, hal, hcan, hrest⟩ := hgrant
          have hone : Granted pt.internalOffset [f] s.alloc a₁ := ⟨a₁, ha, hal, hcan, rfl⟩
          have hfr := (hfresh [f] a₁ hone (Nat.succ_le_succ (Nat.zero_le _))).2 f
            (List.mem_singleton.mpr rfl)
          rw [List.map_cons] at hp
          have hdown := descend hwf hto hp hn hu ha hal
            (show (⟨f.addr + pt.internalOffset, hcan⟩ : VirtAddr).addr = _ from rfl) hfr
          have hlink := created_link hto hwf hp hn hu ha hal hcan hfr
          obtain ⟨r, s', hr⟩ := ih (fun l hl => hlv l (List.mem_cons_of_mem level hl)) hlink.wf
            (by
              rw [hlink.tables_eq]
              exact FreshGrants.after (by rwa [List.length_singleton, Nat.add_comm]) hone)
            (path_down hp) hdown.found (fun l _ _ => hdown.empty (pageIndex l to_)) hrest
            (hcount.imp Nat.succ.inj fun h => ⟨Nat.lt_of_succ_lt_succ h.1, h.2⟩)
          refine ⟨r, s', ?_⟩
          rw [createLevels_cons_ok h1 h4 hu ha hal hwf.offset hcan]
          exact hr

/-- What a `map` that returned did: it found the page mapped; or it ran out of
    frames with `gs` linked; or it linked what was missing and wrote the leaf
    entry. -/
inductive MapFollowed (pt : RecursivePageTable) (root : PhysAddr) (from_ : PhysAddr)
    (to_ : VirtAddr) (flags : PageTableFlags) (s : PagingState σ) :
    List PhysAddr → Except PagingError Unit → PagingState σ → Prop where
  | refused {e : PagingError} :
      leafEntry root s.mem to_ ≠ none → MapFollowed pt root from_ to_ flags s [] (.error e) s
  | stopped {e : PagingError} {gs : List PhysAddr} {s' : PagingState σ} {a₁ : σ} :
      leafEntry root s.mem to_ = none → gs.length < tablesMissing root s.mem [to_.addr] →
      Created pt root [to_.addr] gs s ⟨s'.mem, a₁⟩ → Failed a₁ s'.alloc →
      MapFollowed pt root from_ to_ flags s gs (.error e) s'
  | mapped {gs : List PhysAddr} {s₁ : PagingState σ} {t : Nat} :
      leafEntry root s.mem to_ = none → from_.addr % PAGE_SIZE = 0 →
      gs.length = tablesMissing root s.mem [to_.addr] →
      Created pt root [to_.addr] gs s s₁ →
      walk child s₁.mem root.addr (tablePath to_) = some t →
      MapFollowed pt root from_ to_ flags s gs (.ok ())
        ⟨setEntry s₁.mem t (pageIndex 1 to_) (.ofAddr from_ flags), s₁.alloc⟩

theorem levels_length {level : Nat} : (List.range' 2 (level - 1)).reverse.length = level - 1 := by
  simp

/-- **`map`, FOLLOWED.** -/
theorem map_followed {r : Except PagingError Unit} (hto : pageIndex 4 to_ ≠ RECURSIVE)
    (hwf : TreeWF pt root s.mem)
    (hfresh : FreshGrants pt.internalOffset (tablesMissing root s.mem [to_.addr])
      (tables root s.mem) s.alloc)
    (h : pt.map from_ to_ flags s = .ok (r, s')) :
    ∃ gs, MapFollowed pt root from_ to_ flags s gs r s' := by
  rw [map_eq_mapFrom hto] at h
  obtain ⟨level, table, hf, heq⟩ := mapFrom_eq from_ flags hto hwf
  have hlow := hf.low
  have hhigh := hf.high
  rw [tablesMissing_one hf] at hfresh
  have hcreate {r₁ : Except PagingError VirtAddr} {s₁ : PagingState σ}
      (h₁ : pt.createLevels to_ (List.range' 2 (level - 1)).reverse table s = .ok (r₁, s₁)) :=
    createLevels_created hto (creation_levels hhigh) hwf (by rwa [levels_length])
      (creation_path hlow hhigh to_) hf.found h₁
  rw [heq] at h
  rcases andThen_cases h with ⟨e, h₁, rfl⟩ | ⟨current, s₁, h₁, h₂⟩
  · rcases hcreate h₁ with ⟨e', gs, a₁, -, hlt, hcreated, hex⟩ | ⟨_, _, he, -⟩
    · rw [levels_length, ← tablesMissing_one hf] at hlt
      have hlevel : 1 < level := by
        rw [tablesMissing_one hf] at hlt
        omega
      exact ⟨gs, MapFollowed.stopped (hf.leafEntry_none hlevel) hlt hcreated hex⟩
    · cases he
  · rcases hcreate h₁ with ⟨_, _, _, he, -⟩ | ⟨current', gs, he, hlen, hcreated, hw, hempty⟩
    · cases he
    cases he
    have hleaf := hcreated.leaves to_ hto
    rw [leafEntry_of_walk hw] at hleaf
    rcases mapLeaf_cases h₂ with ⟨rfl, rfl, hu⟩ | ⟨rfl, hal, hu, rfl⟩
    · -- a used entry: the level-1 table is not new, so no table was created
      rw [hu] at hleaf
      have hnil : (List.range' 2 (level - 1)).reverse = [] := by
        by_contra hne
        rw [hempty hne] at hu
        cases hu
      rw [hnil] at h₁
      cases h₁
      refine ⟨[], MapFollowed.refused ?_⟩
      rw [← hleaf]
      exact nofun
    · rw [hu] at hleaf
      rw [levels_length, ← tablesMissing_one hf] at hlen
      exact ⟨gs, MapFollowed.mapped hleaf.symm hal hlen hcreated hw⟩

omit [FrameAllocator σ] in
theorem mapLeaf_returns (current : VirtAddr) (s : PagingState σ)
    (h : (s.mem (pt.frameOf current) (pageIndex 1 to_)).isUnused = true →
      from_.addr % PAGE_SIZE = 0) :
    ∃ r s', pt.mapLeaf from_ to_ flags current s = .ok (r, s') := by
  by_cases hu : (s.mem (pt.frameOf current) (pageIndex 1 to_)).isUnused = true
  · obtain ⟨r, s', hr, -⟩ := @mapLeaf_ok pt σ from_ to_ flags current s (h hu)
    exact ⟨r, s', hr⟩
  · rw [RecursivePageTable.mapLeaf, getPageIndex_eq (by omega) (by omega), ok_bind, if_neg hu]
    exact ⟨_, _, rfl⟩

/-- `map` returns when the allocator hands out a frame for each missing table, or
    answers with an error before that, and the frame to be mapped is aligned
    where its entry is written. -/
theorem map_granted (from_ : PhysAddr) (flags : PageTableFlags) {a' : σ}
    (hto : pageIndex 4 to_ ≠ RECURSIVE)
    (hwf : TreeWF pt root s.mem)
    (hfresh : FreshGrants pt.internalOffset (tablesMissing root s.mem [to_.addr])
      (tables root s.mem) s.alloc)
    (hgrant : Granted pt.internalOffset gs s.alloc a')
    (hcount : gs.length = tablesMissing root s.mem [to_.addr]
      ∨ gs.length < tablesMissing root s.mem [to_.addr] ∧ Exhausted a')
    (hal : gs.length = tablesMissing root s.mem [to_.addr] → leafEntry root s.mem to_ = none →
      from_.addr % PAGE_SIZE = 0) :
    ∃ r s', pt.map from_ to_ flags s = .ok (r, s') := by
  rw [map_eq_mapFrom hto]
  obtain ⟨level, table, hf, heq⟩ := mapFrom_eq from_ flags hto hwf
  rw [heq]
  rw [tablesMissing_one hf] at hfresh hcount hal
  rw [← levels_length] at hfresh hcount hal
  obtain ⟨r₁, s₁, h₁⟩ := createLevels_granted hto (creation_levels hf.high) hwf hfresh
    (creation_path hf.low hf.high to_) hf.found (fun l rest hl => hf.first_unused hl) hgrant hcount
  rw [h₁]
  cases r₁ with
  | error e => exact ⟨.error e, s₁, rfl⟩
  | ok current =>
      rcases createLevels_created hto (creation_levels hf.high) hwf hfresh
          (creation_path hf.low hf.high to_) hf.found h₁ with
        ⟨_, _, _, he, -⟩ | ⟨current', gs', he, hlen, hcreated, hw, -⟩
      · cases he
      cases he
      refine mapLeaf_returns current s₁ fun hu => hal ?_ ?_
      · rcases hcount with hlen' | ⟨hlt, hex⟩
        · exact hlen'
        · exact absurd hex (hcreated.granted.not_exhausted hgrant (by omega))
      · rw [← hcreated.leaves to_ hto, leafEntry_of_walk hw, hu]
        rfl

/-- On the way to a mapped page no table is missing. -/
theorem tablesMissing_mapped {mem : PhysMem} (hto : pageIndex 4 to_ ≠ RECURSIVE)
    (hwf : TreeWF pt root mem) (h : leafEntry root mem to_ ≠ none) :
    tablesMissing root mem [to_.addr] = 0 := by
  obtain ⟨level, table, hf, -⟩ :=
    mapFrom_eq (s := (⟨mem, sampleLinear⟩ : PagingState LinearFrameAllocator)) ⟨0, by decide⟩
      flagsRw hto hwf
  have hlevel : level ≤ 1 := by
    by_contra hlt
    exact h (hf.leafEntry_none (by omega))
  rw [tablesMissing_one hf]
  omega

end Map

end KermolTableDemand
