import Kermol.ContiguousProofs
import Kermol.RecursiveSlotProofs

/-! # Printing the page table

    `Debug` prints the page table as a tree: a line for every table that an entry
    points to, and below the level-1 tables a line for every page.  The recursive
    slot is not left out: the tables come out once more as pages.

    The printer is followed for every sink that it can write to.  What it writes
    is one list of lines (`debugRecursive_eq`), and the pages among them are
    exactly those that `translate` finds, each once, in the order of their
    addresses (`debug_lists_translations`). -/

namespace KermolPageTableDebug

open RustEffect X86Paging KermolFrameAllocator KermolPageTable KermolPageTree KermolMapStep
open KermolPageTableRun KermolContiguous KermolRecursiveSlot RadixTree

/-! ## The code -/

section Code

variable {ε σ : Type} (write : String → σ → Fallible ε σ Unit)
  (entryDebug : PageTableEntry → String)

/-- `{:p}` -/
def pointer (a : Nat) : String := "0x" ++ String.ofList (Nat.toDigits 16 a)

namespace RecursivePageTable

/-- `debug_page` -/
def debugPage (self : RecursivePageTable) (mem : PhysMem) (page : VirtAddr) :
    σ → Fallible ε σ Unit :=
  forEach (fun (i : Fin 512) s =>
    let entry := mem (self.frameOf page) i
    if entry.isUnused then .ok (.ok (), s)
    else write ("\t\t\t\t" ++ toString i.val ++ " => " ++ entryDebug entry ++ "\n") s)
    (List.finRange 512)

/-- `debug_recursive`, for the level that has `below` levels below it. -/
def debugRecursive (self : RecursivePageTable) (mem : PhysMem) :
    (below : Nat) → VirtAddr → σ → Fallible ε σ Unit
  | 0, current => debugPage write entryDebug self mem current
  | below + 1, current =>
      let level := below + 2
      forEach (fun (i : Fin 512) s =>
        let entry := mem (self.frameOf current) i
        if entry.isUnused then .ok (.ok (), s)
        else show Panics _ from do
          let next ← self.physPageTableAsVirt entry.addr
          andThen (forEach (fun _ s => write "\t" s) (List.range (4 - level)) s) fun _ s =>
          andThen (write ("(table level " ++ toString level ++ ")[" ++ toString i.val ++ "] = "
              ++ pointer next.addr ++ " = (table level " ++ toString (level - 1) ++ ") \n") s)
            fun _ s => debugRecursive self mem below next s)
        (List.finRange 512)

/-- `Debug::fmt` -/
def fmt (self : RecursivePageTable) (mem : PhysMem) : σ → Fallible ε σ Unit :=
  debugRecursive write entryDebug self mem 3 self.lvl4

end RecursivePageTable

end Code

/-! ## The lines -/

/-- A line, with the indices that lead to the table it is about. -/
inductive Line where
  | table (path : List (Fin 512)) (i : Fin 512) (next : Nat)
  | page (path : List (Fin 512)) (i : Fin 512) (entry : PageTableEntry)

/-- What is written for it. -/
def Line.strings (entryDebug : PageTableEntry → String) : Line → List String
  | .table path i next => List.replicate path.length "\t"
      ++ ["(table level " ++ toString (4 - path.length) ++ ")[" ++ toString i.val ++ "] = "
        ++ pointer next ++ " = (table level " ++ toString (4 - path.length - 1) ++ ") \n"]
  | .page _ i entry =>
      ["\t\t\t\t" ++ toString i.val ++ " => " ++ entryDebug entry ++ "\n"]

/-- The lines for a table. -/
def lines (offset : Nat) (mem : PhysMem) : (below : Nat) → List (Fin 512) → Nat → List Line
  | 0, path, n => (List.finRange 512).flatMap fun i =>
      if (mem n i).isUnused then [] else [.page path i (mem n i)]
  | below + 1, path, n => (List.finRange 512).flatMap fun i =>
      if (mem n i).isUnused then []
      else .table path i ((mem n i).addr.addr + offset)
        :: lines offset mem below (path ++ [i]) (mem n i).addr.addr

section Writing

variable {ε σ : Type} {write : String → σ → Fallible ε σ Unit}
  {entryDebug : PageTableEntry → String} {pt : RecursivePageTable} {mem : PhysMem}

/-- The tabs. -/
theorem forEach_tabs (n : Nat) (s : σ) :
    forEach (fun _ s => write "\t" s) (List.range n) s
      = forEach write (List.replicate n "\t") s := by
  have htabs : List.replicate n "\t" = (List.range n).map fun _ => "\t" := by
    rw [List.map_const', List.length_range]
  rw [htabs, forEach_map]

/-- `debug_page` writes the lines of its table. -/
theorem debugPage_eq (path : List (Fin 512)) (page : VirtAddr) :
    RecursivePageTable.debugPage write entryDebug pt mem page
      = forEach write ((lines pt.internalOffset mem 0 path (pt.frameOf page)).flatMap
        (Line.strings entryDebug)) := by
  funext s
  rw [RecursivePageTable.debugPage, lines, List.flatMap_assoc, forEach_flatMap]
  congr 1
  funext i s
  dsimp only
  split
  · rfl
  · exact (forEach_singleton write _ s).symm

/-- **`debug_recursive` WRITES THE LINES,** if every table it gets to has an address in the
    direct map. -/
theorem debugRecursive_eq (below : Nat) :
    ∀ (path : List (Fin 512)) (current : VirtAddr), path.length + below = 3 →
      (∀ q n, q ≠ [] → q.length ≤ below → walk child mem (pt.frameOf current) q = some n →
        IsCanonical (n + pt.internalOffset)) →
      RecursivePageTable.debugRecursive write entryDebug pt mem below current
        = forEach write ((lines pt.internalOffset mem below path (pt.frameOf current)).flatMap
          (Line.strings entryDebug)) := by
  induction below with
  | zero =>
      intro path current _ _
      exact debugPage_eq path current
  | succ below ih =>
      intro path current hlevel hcan
      funext s
      rw [RecursivePageTable.debugRecursive, lines, List.flatMap_assoc, forEach_flatMap]
      congr 1
      funext i s
      dsimp only
      cases hu : (mem (pt.frameOf current) i).isUnused with
      | true =>
          rw [if_pos rfl, if_pos rfl]
          rfl
      | false =>
          rw [if_neg Bool.false_ne_true, if_neg Bool.false_ne_true]
          have hchild := child_of_used hu
          have hnext := hcan [i] _ (List.cons_ne_nil i []) (Nat.le_add_left 1 below) (by
            rw [walk_cons, hchild]
            rfl)
          have hptr : pt.physPageTableAsVirt (mem (pt.frameOf current) i).addr
              = .ok ⟨_, hnext⟩ := VirtAddr.new_eq_ok.mpr rfl
          have hframe := RecursivePageTable.frameOf_physPageTableAsVirt hptr
          have hbelow := ih (path ++ [i]) ⟨_, hnext⟩ (by
            rw [List.length_append, List.length_singleton]
            omega) (by
            intro q n hq hlen hwalk
            rw [hframe] at hwalk
            refine hcan (i :: q) n (List.cons_ne_nil i q) (Nat.succ_le_succ hlen) ?_
            rw [walk_cons, hchild]
            exact hwalk)
          rw [hframe] at hbelow
          have htabs : 4 - (below + 2) = path.length := by omega
          have hthis : below + 2 = 4 - path.length := by omega
          rw [hptr, ok_bind, List.flatMap_cons, forEach_append, Line.strings, forEach_append,
            forEach_tabs, htabs, hbelow, hthis, andThen_assoc]
          simp only [forEach_singleton]

end Writing

/-! ## The pages -/

section Pages

variable {pt : RecursivePageTable} {root : PhysAddr} {mem : PhysMem} {offset : Nat}
  {p : List (Fin 512)} {i : Fin 512} {e : PageTableEntry}

/-- **WHICH PAGES HAVE A LINE:** those whose indices lead to an entry in use. -/
theorem page_mem_lines {below : Nat} :
    ∀ {path : List (Fin 512)} {n : Nat}, .page p i e ∈ lines offset mem below path n
      ↔ ∃ q m, p = path ++ q ∧ q.length = below ∧ walk child mem n q = some m
        ∧ mem m i = e ∧ e.isUnused = false := by
  induction below with
  | zero =>
      intro path n
      simp only [lines, List.mem_flatMap, List.mem_finRange, true_and]
      constructor
      · rintro ⟨j, hj⟩
        cases hu : (mem n j).isUnused with
        | true =>
            rw [if_pos hu] at hj
            cases hj
        | false =>
            rw [if_neg (by rw [hu]; decide), List.mem_singleton] at hj
            cases hj
            exact ⟨[], n, (List.append_nil p).symm, rfl, rfl, rfl, hu⟩
      · rintro ⟨q, m, rfl, hq, hwalk, rfl, hu⟩
        cases List.length_eq_zero_iff.mp hq
        cases hwalk
        refine ⟨i, ?_⟩
        rw [if_neg (by rw [hu]; decide), List.append_nil]
        exact List.mem_singleton_self _
  | succ below ih =>
      intro path n
      simp only [lines, List.mem_flatMap, List.mem_finRange, true_and]
      constructor
      · rintro ⟨j, hj⟩
        cases hu : (mem n j).isUnused with
        | true =>
            rw [if_pos hu] at hj
            cases hj
        | false =>
            rw [if_neg (by rw [hu]; decide), List.mem_cons] at hj
            rcases hj with hj | hj
            · cases hj
            · obtain ⟨q, m, rfl, hq, hwalk, hentry⟩ := ih.mp hj
              refine ⟨j :: q, m, by simp, by rw [List.length_cons, hq], ?_, hentry⟩
              rw [walk_cons, child_of_used hu]
              exact hwalk
      · rintro ⟨q, m, rfl, hq, hwalk, hentry⟩
        cases q with
        | nil => cases hq
        | cons j q =>
            rw [walk_cons] at hwalk
            obtain ⟨m', hchild, hwalk⟩ := Option.bind_eq_some_iff.mp hwalk
            cases hu : (mem n j).isUnused with
            | true =>
                rw [child_of_unused hu] at hchild
                cases hchild
            | false =>
                rw [child_of_used hu] at hchild
                cases hchild
                refine ⟨j, ?_⟩
                rw [if_neg (by rw [hu]; decide)]
                refine List.mem_cons_of_mem _ (ih.mpr ⟨q, m, by simp, ?_, hwalk, hentry⟩)
                exact Nat.succ.inj hq

/-- The indices of a page. -/
def Line.position : Line → Option (List (Fin 512))
  | .table _ _ _ => none
  | .page path i _ => some (path ++ [i])

theorem mem_positions {ls : List Line} {x : List (Fin 512)} :
    x ∈ ls.filterMap Line.position ↔ ∃ p i e, .page p i e ∈ ls ∧ x = p ++ [i] := by
  rw [List.mem_filterMap]
  constructor
  · rintro ⟨l, hl, hx⟩
    cases l with
    | table path i next => cases hx
    | page path i e =>
        cases hx
        exact ⟨path, i, e, hl, rfl⟩
  · rintro ⟨p, i, e, hl, rfl⟩
    exact ⟨_, hl, rfl⟩

/-- **THE ORDER OF THE PAGES.** -/
theorem positions_sorted {below : Nat} :
    ∀ (path : List (Fin 512)) (n : Nat),
      ((lines offset mem below path n).filterMap Line.position).Pairwise (· < ·) := by
  induction below with
  | zero =>
      intro path n
      rw [lines, List.filterMap_flatMap, List.pairwise_flatMap]
      refine ⟨fun i _ => ?_, (List.pairwise_lt_finRange 512).imp fun {i j} hij x hx y hy => ?_⟩
      · split
        · exact List.Pairwise.nil
        · exact List.pairwise_singleton _ _
      · split at hx
        · cases hx
        · split at hy
          · cases hy
          · cases List.mem_singleton.mp hx
            cases List.mem_singleton.mp hy
            exact List.append_left_lt (List.cons_lt_cons_iff.mpr (Or.inl hij))
  | succ below ih =>
      intro path n
      rw [lines, List.filterMap_flatMap, List.pairwise_flatMap]
      -- the positions below an entry begin with the path and its index
      have hbelow : ∀ i x, x ∈ (if (mem n i).isUnused then []
          else Line.table path i ((mem n i).addr.addr + offset)
            :: lines offset mem below (path ++ [i]) (mem n i).addr.addr).filterMap Line.position →
          ∃ q, x = path ++ i :: q := by
        intro i x hx
        split at hx
        · cases hx
        · obtain ⟨p, k, e, hl, rfl⟩ := mem_positions.mp hx
          rcases List.mem_cons.mp hl with hl | hl
          · cases hl
          · obtain ⟨q, m, rfl, -⟩ := page_mem_lines.mp hl
            exact ⟨q ++ [k], by simp⟩
      refine ⟨fun i _ => ?_, (List.pairwise_lt_finRange 512).imp fun {i j} hij x hx y hy => ?_⟩
      · split
        · exact List.Pairwise.nil
        · exact ih (path ++ [i]) (mem n i).addr.addr
      · obtain ⟨q, rfl⟩ := hbelow i x hx
        obtain ⟨q', rfl⟩ := hbelow j y hy
        exact List.append_left_lt (List.cons_lt_cons_iff.mpr (Or.inl hij))

end Pages

section Reached

variable {σ : Type} [FrameAllocator σ] {hhdm : HhdmResponse} {pt : RecursivePageTable}
  {s s₀ s₁ : PagingState σ} {ops : List Op} {rs : List (Except PagingError Unit)}

/-- **`Debug` LISTS WHAT `translate` FINDS.**  For every page table that `map`, `unmap` and
    `update_flags` reach from `new` there is one list of lines, and to every sink
    `fmt` writes these up to the first that the sink refuses.  There is a line
    for a page exactly if `translate` finds the addresses of the page, through
    the recursive slot too, and it shows the entry that they are translated by;
    the pages are in the order of their indices, none twice. -/
theorem debug_lists_translations (hnew : RecursivePageTable.new hhdm s = .ok (pt, s₀))
    (hops : ∀ op ∈ ops, op.Outside) (hrun : run pt ops s₀ = .ok (rs, s₁))
    (hfresh : Fresh (3 * ops.length + 1) ∅ s.alloc) :
    ∃ ls : List Line,
      (∀ (ε τ : Type) (write : String → τ → Fallible ε τ Unit)
        (entryDebug : PageTableEntry → String),
        RecursivePageTable.fmt write entryDebug pt s₁.mem
          = forEach write (ls.flatMap (Line.strings entryDebug)))
      ∧ (∀ v q, pt.translate s₁.mem v = .ok (some q)
        ↔ ∃ e, .page (tablePath v) (pageIndex 1 v) e ∈ ls ∧ q = physAt e v)
      ∧ (∀ p i e, .page p i e ∈ ls → ∃ v, tablePath v = p ∧ pageIndex 1 v = i)
      ∧ (ls.filterMap Line.position).Pairwise (· < ·) := by
  obtain ⟨root, _, -, hwf, -⟩ := reached (k := 0) hnew hops hrun hfresh
  have hroot := hwf.frameOf_lvl4
  refine ⟨lines pt.internalOffset s₁.mem 3 [] root.addr, ?_, ?_, ?_, positions_sorted _ _⟩
  · intro ε τ write entryDebug
    rw [RecursivePageTable.fmt, debugRecursive_eq 3 [] pt.lvl4 rfl, hroot]
    intro q n _ hlen hwalk
    rw [hroot] at hwalk
    exact (hwf.reach n (walk_mem_tables hwf hlen hwalk)).2.2
  · intro v q
    rw [translate_walk hwf]
    constructor
    · rintro ⟨m, hwalk, hu, rfl⟩
      exact ⟨_, page_mem_lines.mpr ⟨_, m, rfl, rfl, hwalk, rfl, hu⟩, rfl⟩
    · rintro ⟨e, hl, rfl⟩
      obtain ⟨p, m, rfl, -, hwalk, rfl, hu⟩ := page_mem_lines.mp hl
      exact ⟨m, hwalk, hu, rfl⟩
  · intro p i e hl
    obtain ⟨q, m, rfl, hlen, -⟩ := page_mem_lines.mp hl
    obtain ⟨a, b, c, rfl⟩ := List.length_eq_three.mp hlen
    exact exists_address a b c i

/-- A page table with one page. -/
theorem debug_lists_translations_sample :
    ∃ pt s₀ rs s₁, RecursivePageTable.new sampleHhdm sampleState = .ok (pt, s₀)
      ∧ run pt [.map sampleFrame samplePage flagsRw] s₀ = .ok (rs, s₁)
      ∧ ∃ ls : List Line, ∀ v q, pt.translate s₁.mem v = .ok (some q)
        ↔ ∃ e, .page (tablePath v) (pageIndex 1 v) e ∈ ls ∧ q = physAt e v := by
  obtain ⟨hfresh, hlive, hnf⟩ := sampleState_contract (k := 4) (by decide)
  obtain ⟨pt, s₀, hnew⟩ := new_total (live_mono hlive (by omega))
    (neverFails_mono hnf (by omega))
  have hops : ∀ op ∈ [Op.map sampleFrame samplePage flagsRw], op.Outside ∧ op.Aligned := by
    decide
  obtain ⟨rs, s₁, -, -, hrun, -⟩ := reached_total (k := 0) hnew hops hfresh hlive
  obtain ⟨ls, -, htranslate, -⟩ := debug_lists_translations hnew
    (fun op hop => (hops op hop).1) hrun hfresh
  exact ⟨pt, s₀, rs, s₁, hnew, hrun, ls, htranslate⟩

end Reached

end KermolPageTableDebug
