import Kermol.RadixTreeProofs
import Kermol.FrameAllocatorProofs

/-! # The recursive page table

    `RecursivePageTable` holds the pointer to the level-4 table and the offset
    of the direct map through which every table is reached: the table in frame
    `f` is dereferenced at virtual address `f + internalOffset`.  Entry 510 of
    the level-4 table points back to the level-4 table itself.

    The code walks by pointers and may panic on the way; underneath is the
    radix walk over physical memory.  `getPageTable_eq` says that a walk that
    returns is that radix walk, `getPageTable_total` when it returns. -/

namespace KermolPageTable

open RustEffect X86Paging KermolFrameAllocator
open RadixTree

/-! ## The code -/

/-- `flags_r` -/
def flagsR : PageTableFlags := .union .PRESENT .NO_EXECUTE
/-- `flags_rw` -/
def flagsRw : PageTableFlags := .union (.union .WRITABLE .PRESENT) .NO_EXECUTE
/-- `flags_rx` -/
def flagsRx : PageTableFlags := .PRESENT
/-- `flags_rwx` -/
def flagsRwx : PageTableFlags := .union .WRITABLE .PRESENT

/-- `LEVEL4`: the pointer that `load` installs. -/
def LEVEL4 : VirtAddr := ⟨0xFFFFFF7FFFFFF000, by decide⟩

/-- A table has entries. -/
instance neZero_entries : NeZero 512 := ⟨by decide⟩

/-- The recursive slot of the level-4 table. -/
def RECURSIVE : Fin 512 := 510

/-- Limine's answer to the HHDM request: the base of the direct map, a page
    aligned canonical address. -/
structure HhdmResponse where
  offset : VirtAddr
  aligned : offset.addr % PAGE_SIZE = 0

/-- `RecursivePageTable` -/
structure RecursivePageTable where
  lvl4 : VirtAddr
  internalOffset : Nat
deriving DecidableEq, Repr

/-- The physical memory and the frame allocator that the methods work on. -/
structure PagingState (σ : Type) where
  mem : PhysMem
  alloc : σ

/-- `get_page_index` asserts that the level exists. -/
def getPageIndex (level addr : Nat) : Panics (Fin 512) :=
  if 1 ≤ level ∧ level ≤ 4 then
    .ok ⟨(addr >>> (9 * level + 3)) &&& 0o777,
      Nat.lt_of_le_of_lt Nat.and_le_right (by decide)⟩
  else .error .assertFailed

namespace RecursivePageTable

variable {σ : Type}

/-- The frame behind a pointer into the direct map. -/
def frameOf (self : RecursivePageTable) (ptr : VirtAddr) : Nat :=
  ptr.addr - self.internalOffset

/-- `phys_page_table_as_virt` -/
def physPageTableAsVirt (self : RecursivePageTable) (pageTable : PhysAddr) :
    Panics VirtAddr :=
  VirtAddr.new (pageTable.addr + self.internalOffset)

/-- `new_page_table_level` writes an empty table, and panics on a pointer that
    is not page aligned. -/
def newPageTableLevel (mem : PhysMem) (offset : Nat) (ptr : VirtAddr) :
    Panics PhysMem :=
  if ptr.addr % PAGE_SIZE = 0 then
    .ok (clear mem (ptr.addr - offset) PageTableEntry.new)
  else .error .explicit

/-- `RecursivePageTable::new` -/
def new [FrameAllocator σ] (hhdm : HhdmResponse) (s : PagingState σ) :
    Panics (RecursivePageTable × PagingState σ) := do
  let internalOffset := hhdm.offset.addr
  let (answer, alloc) ← FrameAllocator.alloc s.alloc
  match answer with
  | .error _ => .error .unwrapFailed
  | .ok frame =>
      let base ← VirtAddr.new frame.addr
      let lvl4 ← base.add internalOffset
      let mem ← newPageTableLevel s.mem internalOffset lvl4
      -- `PhysFrame::containing_address` rounds down to the page
      let start ← PhysAddr.new (frame.addr - frame.addr % PAGE_SIZE)
      let e ← PageTableEntry.setAddr start flagsRw
      return (⟨lvl4, internalOffset⟩,
        ⟨setEntry mem (lvl4.addr - internalOffset) RECURSIVE e, alloc⟩)

/-- The loop of `get_page_table`: one dereference for each level listed. -/
def walkLevels (self : RecursivePageTable) (mem : PhysMem) (to_ : VirtAddr) :
    List Nat → VirtAddr → Panics (Option VirtAddr)
  | [], current => return some current
  | level :: rest, current => do
      let i ← getPageIndex level to_.addr
      let entry := mem (self.frameOf current) i
      if entry.isUnused then return none
      else
        let next ← self.physPageTableAsVirt entry.addr
        walkLevels self mem to_ rest next

/-- `get_page_table`: the table of level `targetLvl` on the way to `to`. -/
def getPageTable (self : RecursivePageTable) (mem : PhysMem) (targetLvl : Nat)
    (to_ : VirtAddr) : Panics (Option VirtAddr) :=
  if 1 ≤ targetLvl ∧ targetLvl ≤ 4 then
    self.walkLevels mem to_
      ((List.range (4 - targetLvl)).map fun level => 4 - level) self.lvl4
  else .error .assertFailed

/-- The inner loop of `map`: create the missing tables, highest level first.
    A failing allocation returns with the tables linked so far. -/
def createLevels [FrameAllocator σ] (self : RecursivePageTable)
    (to_ : VirtAddr) :
    List Nat → VirtAddr → PagingState σ →
      Fallible PagingError (PagingState σ) VirtAddr
  | [], current, s => .ok (.ok current, s)
  | level :: rest, current, s => show Panics _ from do
      let i ← getPageIndex level to_.addr
      if (s.mem (self.frameOf current) i).isUnused then
        let (answer, alloc) ← FrameAllocator.alloc s.alloc
        match answer with
        -- no cleanup: what was linked so far stays linked
        | .error _ => return (.error .tableAllocationFailed, ⟨s.mem, alloc⟩)
        | .ok frame =>
            let entry ← PageTableEntry.setAddr frame flagsRwx
            let mem := setEntry s.mem (self.frameOf current) i entry
            let next ← self.physPageTableAsVirt entry.addr
            let mem ← newPageTableLevel mem self.internalOffset next
            createLevels self to_ rest next ⟨mem, alloc⟩
      else .error .assertFailed

/-- The end of `map`, once the level-1 table exists. -/
def mapLeaf (self : RecursivePageTable) (from_ : PhysAddr) (to_ : VirtAddr)
    (flags : PageTableFlags) (current : VirtAddr) (s : PagingState σ) :
    Fallible PagingError (PagingState σ) Unit :=
  show Panics _ from do
    let i ← getPageIndex 1 to_.addr
    if (s.mem (self.frameOf current) i).isUnused then
      -- `set_addr` panics on an address that is not page aligned
      let entry ← PageTableEntry.setAddr from_ flags
      return (.ok (), { s with mem := setEntry s.mem (self.frameOf current) i entry })
    else return (.error (.alreadyMapped to_), s)

/-- The outer loop of `map`: the lowest level whose table exists is where the
    missing tables are hung in. -/
def mapFrom [FrameAllocator σ] (self : RecursivePageTable) (from_ : PhysAddr)
    (to_ : VirtAddr) (flags : PageTableFlags) (s : PagingState σ) :
    List Nat → Fallible PagingError (PagingState σ) Unit
  | [] => .error .unreachable
  | level :: rest => show Panics _ from do
      match ← self.getPageTable s.mem level to_ with
      | none => mapFrom self from_ to_ flags s rest
      | some table =>
          andThen (self.createLevels to_ (List.range' 2 (level - 1)).reverse table s)
            fun current s => self.mapLeaf from_ to_ flags current s

/-- `RecursivePageTable::map` -/
def map [FrameAllocator σ] (self : RecursivePageTable) (from_ : PhysAddr)
    (to_ : VirtAddr) (flags : PageTableFlags) (s : PagingState σ) :
    Fallible PagingError (PagingState σ) Unit :=
  show Panics _ from do
    let i ← getPageIndex 4 to_.addr
    if i = RECURSIVE then return (.error (.attemptedMappingToReserved to_), s)
    else self.mapFrom from_ to_ flags s (List.range' 1 4)

/-- `RecursivePageTable::update_flags`: a missing level-1 table is not an
    error here. -/
def updateFlags (self : RecursivePageTable) (to_ : VirtAddr)
    (flags : PageTableFlags) (s : PagingState σ) :
    Fallible PagingError (PagingState σ) Unit :=
  show Panics _ from do
    match ← self.getPageTable s.mem 1 to_ with
    | none => return (.ok (), s)
    | some table =>
        let i ← getPageIndex 1 to_.addr
        let entry := s.mem (self.frameOf table) i
        if entry.isUnused then return (.error (.notMapped to_), s)
        else return (.ok (),
          { s with mem := setEntry s.mem (self.frameOf table) i (entry.setFlags flags) })

/-- `RecursivePageTable::translate` -/
def translate (self : RecursivePageTable) (mem : PhysMem) (from_ : VirtAddr) :
    Panics (Option PhysAddr) := do
  match ← self.getPageTable mem 1 from_ with
  | none => return none
  | some table =>
      let i ← getPageIndex 1 from_.addr
      let entry := mem (self.frameOf table) i
      if entry.isUnused then return none
      else
        let p ← entry.addr.add (from_.addr % PAGE_SIZE)
        return some p

/-- `RecursivePageTable::unmap`: the allocator it is given is not used. -/
def unmap (self : RecursivePageTable) (address : VirtAddr) (s : PagingState σ) :
    Fallible PagingError (PagingState σ) Unit :=
  show Panics _ from do
    match ← self.getPageTable s.mem 1 address with
    | none => return (.error (.notMapped address), s)
    | some table =>
        let i ← getPageIndex 1 address.addr
        if (s.mem (self.frameOf table) i).isUnused then
          return (.error (.notMapped address), s)
        else return (.ok (),
          { s with mem := setEntry s.mem (self.frameOf table) i PageTableEntry.new })

/-- `map_contiguous`: `pages * PAGE_SIZE` is a 64-bit product. -/
def mapContiguous [FrameAllocator σ] (self : RecursivePageTable) (pages : Nat)
    (from_ : PhysAddr) (to_ : VirtAddr) (flags : PageTableFlags)
    (s : PagingState σ) : Fallible PagingError (PagingState σ) Unit :=
  if pages * PAGE_SIZE < 2 ^ 64 then
    forEach (fun page s => show Panics _ from do
      let p ← from_.add (page * PAGE_SIZE)
      let v ← to_.add (page * PAGE_SIZE)
      self.map p v flags s) (List.range pages) s
  else .error .overflow

/-- `unmap_contiguous` -/
def unmapContiguous (self : RecursivePageTable) (pages : Nat)
    (address : VirtAddr) (s : PagingState σ) :
    Fallible PagingError (PagingState σ) Unit :=
  if pages * PAGE_SIZE < 2 ^ 64 then
    forEach (fun page s => show Panics _ from do
      let v ← address.add (page * PAGE_SIZE)
      self.unmap v s) (List.range pages) s
  else .error .overflow

/-- `load`: the frame written to CR3, and the page table afterwards. -/
def load (self : RecursivePageTable) : Panics (RecursivePageTable × PhysAddr) :=
  if self.internalOffset ≤ self.lvl4.addr then do
    let pageTable ← PhysAddr.new (self.lvl4.addr - self.internalOffset)
    if pageTable.addr % PAGE_SIZE = 0 then
      -- from here on the tables are read through the recursive slot
      return ({ self with lvl4 := LEVEL4 }, pageTable)
    else .error .unwrapFailed
  else .error .overflow

end RecursivePageTable

/-! ## The radix walk underneath -/

/-- The table that an entry points to. -/
def child (e : PageTableEntry) : Option Nat :=
  if e.isUnused then none else some e.addr.addr

/-- The indices of levels 4, 3 and 2 on the way to an address. -/
def tablePath (v : VirtAddr) : List (Fin 512) :=
  [pageIndex 4 v, pageIndex 3 v, pageIndex 2 v]

theorem child_of_used {e : PageTableEntry} (h : e.isUnused = false) :
    child e = some e.addr.addr := by
  unfold child
  rw [h]
  rfl

theorem child_of_unused {e : PageTableEntry} (h : e.isUnused = true) :
    child e = none := by
  unfold child
  rw [h]
  rfl

theorem isUnused_iff {e : PageTableEntry} :
    e.isUnused = true ↔ e = PageTableEntry.new := by
  constructor
  · intro h
    obtain ⟨w⟩ := e
    have hw : w = 0#64 := eq_of_beq h
    rw [hw]
    rfl
  · rintro rfl
    rfl

/-- `get_page_index` reads the index of the hardware walk. -/
theorem getPageIndex_eq {level : Nat} (h1 : 1 ≤ level) (h4 : level ≤ 4)
    (v : VirtAddr) : getPageIndex level v.addr = .ok (pageIndex level v) := by
  unfold getPageIndex
  rw [if_pos ⟨h1, h4⟩]
  congr 1
  apply Fin.ext
  show (v.addr >>> (9 * level + 3)) &&& 0o777 = v.addr / 2 ^ (9 * level + 3) % 512
  rw [show (0o777 : Nat) = 2 ^ 9 - 1 from rfl, Nat.and_two_pow_sub_one_eq_mod,
    Nat.shiftRight_eq_div_pow]

namespace RecursivePageTable

variable {self : RecursivePageTable} {mem : PhysMem}

theorem frameOf_physPageTableAsVirt {p : PhysAddr} {ptr : VirtAddr}
    (h : self.physPageTableAsVirt p = .ok ptr) : self.frameOf ptr = p.addr := by
  have hptr := VirtAddr.new_eq_ok.mp h
  unfold frameOf
  omega

/-- One level of the pointer walk, inverted. -/
theorem walkLevels_cons {to_ current : VirtAddr} {level : Nat} {rest : List Nat}
    (h1 : 1 ≤ level) (h4 : level ≤ 4) {r : Option VirtAddr}
    (h : self.walkLevels mem to_ (level :: rest) current = .ok r) :
    (child (mem (self.frameOf current) (pageIndex level to_)) = none ∧ r = none)
      ∨ ∃ next, child (mem (self.frameOf current) (pageIndex level to_))
            = some (self.frameOf next)
          ∧ self.walkLevels mem to_ rest next = .ok r := by
  rw [walkLevels, getPageIndex_eq h1 h4, ok_bind] at h
  cases hu : (mem (self.frameOf current) (pageIndex level to_)).isUnused with
  | true =>
      rw [if_pos hu] at h
      cases h
      exact Or.inl ⟨child_of_unused hu, rfl⟩
  | false =>
      rw [if_neg (by rw [hu]; exact Bool.false_ne_true)] at h
      obtain ⟨next, hnext, hrest⟩ := bind_eq_ok.mp h
      refine Or.inr ⟨next, ?_, hrest⟩
      rw [child_of_used hu, frameOf_physPageTableAsVirt hnext]

/-- A pointer walk that returns is the radix walk. -/
theorem walkLevels_eq {to_ : VirtAddr} {levels : List Nat}
    (hlv : ∀ l ∈ levels, 1 ≤ l ∧ l ≤ 4) :
    ∀ {current : VirtAddr} {r : Option VirtAddr},
      self.walkLevels mem to_ levels current = .ok r →
      walk child mem (self.frameOf current) (levels.map fun l => pageIndex l to_)
        = r.map self.frameOf := by
  induction levels with
  | nil =>
      intro current r h
      cases h
      rfl
  | cons level rest ih =>
      intro current r h
      obtain ⟨h1, h4⟩ := hlv level List.mem_cons_self
      rw [List.map_cons, walk_cons]
      rcases walkLevels_cons h1 h4 h with ⟨hc, rfl⟩ | ⟨next, hc, hrest⟩
      · rw [hc]
        rfl
      · rw [hc]
        exact ih (fun l hl => hlv l (List.mem_cons_of_mem level hl)) hrest

/-- The pointer walk returns when every table on the way has a canonical
    address in the direct map. -/
theorem walkLevels_total {to_ : VirtAddr} {levels : List Nat}
    (hlv : ∀ l ∈ levels, 1 ≤ l ∧ l ≤ 4) :
    ∀ {current : VirtAddr},
      (∀ p q n, (levels.map fun l => pageIndex l to_) = p ++ q →
        walk child mem (self.frameOf current) p = some n →
        IsCanonical (n + self.internalOffset)) →
      ∃ r, self.walkLevels mem to_ levels current = .ok r := by
  induction levels with
  | nil => intro current _; exact ⟨some current, rfl⟩
  | cons level rest ih =>
      intro current hcan
      obtain ⟨h1, h4⟩ := hlv level List.mem_cons_self
      rw [walkLevels, getPageIndex_eq h1 h4, ok_bind]
      dsimp only
      cases hu : (mem (self.frameOf current) (pageIndex level to_)).isUnused with
      | true => exact ⟨none, by rw [if_pos rfl]; rfl⟩
      | false =>
          rw [if_neg Bool.false_ne_true]
          have hone : walk child mem (self.frameOf current) [pageIndex level to_]
              = some (mem (self.frameOf current) (pageIndex level to_)).addr.addr := by
            rw [walk_cons, child_of_used hu]
            rfl
          have hc := hcan [pageIndex level to_] _ _ rfl hone
          have hnext : self.physPageTableAsVirt
              (mem (self.frameOf current) (pageIndex level to_)).addr
              = .ok ⟨_, hc⟩ := VirtAddr.new_eq_ok.mpr rfl
          rw [hnext, ok_bind]
          refine ih (fun l hl => hlv l (List.mem_cons_of_mem level hl)) ?_
          intro p q n hpq hn
          refine hcan (pageIndex level to_ :: p) q n ?_ ?_
          · rw [List.map_cons, hpq, List.cons_append]
          · rw [walk_cons, child_of_used hu]
            rw [frameOf_physPageTableAsVirt hnext] at hn
            exact hn

theorem levels_path {l : Nat} (h1 : 1 ≤ l) (h4 : l ≤ 4) (v : VirtAddr) :
    (((List.range (4 - l)).map fun level => 4 - level).map fun l => pageIndex l v)
      = (tablePath v).take (4 - l) := by
  rcases show l = 1 ∨ l = 2 ∨ l = 3 ∨ l = 4 by omega with
    rfl | rfl | rfl | rfl <;> rfl

theorem levels_valid {l : Nat} (h1 : 1 ≤ l) :
    ∀ k ∈ (List.range (4 - l)).map (fun level => 4 - level), 1 ≤ k ∧ k ≤ 4 := by
  intro k hk
  obtain ⟨j, hj, rfl⟩ := List.mem_map.mp hk
  have := List.mem_range.mp hj
  omega

/-- `get_page_table` finds what the radix walk finds. -/
theorem getPageTable_eq {l : Nat} (h1 : 1 ≤ l) (h4 : l ≤ 4) {to_ : VirtAddr}
    {r : Option VirtAddr} (h : self.getPageTable mem l to_ = .ok r) :
    walk child mem (self.frameOf self.lvl4) ((tablePath to_).take (4 - l))
      = r.map self.frameOf := by
  rw [getPageTable, if_pos ⟨h1, h4⟩] at h
  rw [← levels_path h1 h4]
  exact walkLevels_eq (levels_valid h1) h

theorem getPageTable_total {l : Nat} (h1 : 1 ≤ l) (h4 : l ≤ 4) {to_ : VirtAddr}
    (hcan : ∀ p q n, tablePath to_ = p ++ q →
      walk child mem (self.frameOf self.lvl4) p = some n →
      IsCanonical (n + self.internalOffset)) :
    ∃ r, self.getPageTable mem l to_ = .ok r := by
  rw [getPageTable, if_pos ⟨h1, h4⟩]
  refine walkLevels_total (levels_valid h1) ?_
  intro p q n hpq hn
  rw [levels_path h1 h4] at hpq
  refine hcan p (q ++ (tablePath to_).drop (4 - l)) n ?_ hn
  rw [← List.append_assoc, ← hpq, List.take_append_drop]

end RecursivePageTable

end KermolPageTable
