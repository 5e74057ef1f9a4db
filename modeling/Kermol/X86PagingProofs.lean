import Mathlib.Data.Nat.Bitwise
import Mathlib.Data.BitVec
import Kermol.FallibleProofs

/-! # x86-64 paging: addresses, entries, the hardware walk

    The values that paging code handles, as the `x86_64` crate and the
    processor define them.  `VirtAddr` and `PhysAddr` carry the range their
    constructors check (48-bit canonical, 52-bit physical), `PageTableFlags`
    the fact that a flag never lies in the address bits 12..52.  An entry is
    the 64-bit word `address | flags`.

    `hardwareWalk` is the four-level translation the processor performs from
    the frame in CR3, large pages and the rights of every level included. -/

namespace X86Paging

open RustEffect

/-! ## Addresses -/

/-- Bits 48..64 of a canonical address repeat bit 47. -/
def IsCanonical (a : Nat) : Prop :=
  a < 2 ^ 47 ∨ (2 ^ 64 - 2 ^ 47 ≤ a ∧ a < 2 ^ 64)

instance (a : Nat) : Decidable (IsCanonical a) :=
  inferInstanceAs (Decidable (_ ∨ _))

/-- A canonical virtual address. -/
structure VirtAddr where
  addr : Nat
  canonical : IsCanonical addr
deriving DecidableEq, Repr

/-- A physical address: at most 52 bits. -/
structure PhysAddr where
  addr : Nat
  valid : addr < 2 ^ 52
deriving DecidableEq, Repr

theorem VirtAddr.ext {v w : VirtAddr} (h : v.addr = w.addr) : v = w := by
  cases v; cases w; cases h; rfl

theorem PhysAddr.ext {p q : PhysAddr} (h : p.addr = q.addr) : p = q := by
  cases p; cases q; cases h; rfl

/-- `VirtAddr::new`: panics when the address is not canonical. -/
def VirtAddr.new (a : Nat) : Panics VirtAddr :=
  if h : IsCanonical a then .ok ⟨a, h⟩ else .error .invalidAddress

/-- `VirtAddr + u64`: panics on overflow or when the sum is not canonical. -/
def VirtAddr.add (v : VirtAddr) (n : Nat) : Panics VirtAddr :=
  VirtAddr.new (v.addr + n)

/-- `VirtAddr - u64`: panics on underflow or when the result is not
    canonical. -/
def VirtAddr.sub (v : VirtAddr) (n : Nat) : Panics VirtAddr :=
  if n ≤ v.addr then VirtAddr.new (v.addr - n) else .error .overflow

/-- `PhysAddr::new`: panics above 52 bits. -/
def PhysAddr.new (a : Nat) : Panics PhysAddr :=
  if h : a < 2 ^ 52 then .ok ⟨a, h⟩ else .error .invalidAddress

/-- `PhysAddr + u64`: panics on overflow or above 52 bits. -/
def PhysAddr.add (p : PhysAddr) (n : Nat) : Panics PhysAddr :=
  PhysAddr.new (p.addr + n)

theorem VirtAddr.new_eq_ok {a : Nat} {v : VirtAddr} :
    VirtAddr.new a = .ok v ↔ v.addr = a := by
  unfold VirtAddr.new
  constructor
  · intro h
    split at h
    · cases h; rfl
    · cases h
  · rintro rfl
    rw [dif_pos v.canonical]

theorem VirtAddr.add_eq_ok {v w : VirtAddr} {n : Nat} :
    v.add n = .ok w ↔ w.addr = v.addr + n :=
  VirtAddr.new_eq_ok

theorem PhysAddr.new_eq_ok {a : Nat} {p : PhysAddr} :
    PhysAddr.new a = .ok p ↔ p.addr = a := by
  unfold PhysAddr.new
  constructor
  · intro h
    split at h
    · cases h; rfl
    · cases h
  · rintro rfl
    rw [dif_pos p.valid]

/-! ## Flags and entries -/

/-- The bits of an entry that hold the frame address. -/
def physicalAddressMask : BitVec 64 := 0x000ffffffffff000#64

/-- Page-table flags: any bits outside the address field. -/
structure PageTableFlags where
  bits : BitVec 64
  valid : bits &&& physicalAddressMask = 0#64
deriving DecidableEq, Repr

namespace PageTableFlags

def PRESENT : PageTableFlags := ⟨1#64, by decide⟩
def WRITABLE : PageTableFlags := ⟨2#64, by decide⟩
def GLOBAL : PageTableFlags := ⟨0x100#64, by decide⟩
def NO_EXECUTE : PageTableFlags := ⟨0x8000000000000000#64, by decide⟩

/-- `self | other` -/
def union (f g : PageTableFlags) : PageTableFlags :=
  ⟨f.bits ||| g.bits, by
    have hdist : (f.bits ||| g.bits) &&& physicalAddressMask
        = (f.bits &&& physicalAddressMask) ||| (g.bits &&& physicalAddressMask) := by
      ext i
      simp [Bool.and_or_distrib_right]
    rw [hdist, f.valid, g.valid]
    rfl⟩

/-- `self.contains(other)` -/
def contains (f g : PageTableFlags) : Bool := f.bits &&& g.bits == g.bits

theorem ext {f g : PageTableFlags} (h : f.bits = g.bits) : f = g := by
  cases f; cases g; cases h; rfl

end PageTableFlags

/-- A page-table entry: the word `address | flags`, zero when unused. -/
structure PageTableEntry where
  entry : BitVec 64
deriving DecidableEq, Repr

namespace PageTableEntry

/-- `PageTableEntry::new()`, and what `set_unused` writes. -/
def new : PageTableEntry := ⟨0#64⟩

def isUnused (e : PageTableEntry) : Bool := e.entry == 0#64

/-- The frame address in the entry. -/
def addr (e : PageTableEntry) : PhysAddr :=
  ⟨(e.entry &&& physicalAddressMask).toNat, by
    have h : (e.entry &&& physicalAddressMask).toNat
        ≤ physicalAddressMask.toNat := by
      rw [BitVec.toNat_and]
      exact Nat.and_le_right
    have hm : physicalAddressMask.toNat < 2 ^ 52 := by decide
    omega⟩

/-- The flags in the entry. -/
def flags (e : PageTableEntry) : PageTableFlags :=
  ⟨e.entry &&& ~~~physicalAddressMask, by
    ext i
    simp⟩

/-- The word `address | flags`. -/
def ofAddr (a : PhysAddr) (f : PageTableFlags) : PageTableEntry :=
  ⟨BitVec.ofNat 64 a.addr ||| f.bits⟩

/-- `set_addr` asserts that the address is page aligned. -/
def setAddr (a : PhysAddr) (f : PageTableFlags) : Panics PageTableEntry :=
  if a.addr % 4096 = 0 then .ok (ofAddr a f) else .error .assertFailed

/-- `set_flags` keeps the address. -/
def setFlags (e : PageTableEntry) (f : PageTableFlags) : PageTableEntry :=
  ofAddr e.addr f

theorem setAddr_eq_ok {a : PhysAddr} {f : PageTableFlags} {e : PageTableEntry} :
    setAddr a f = .ok e ↔ a.addr % 4096 = 0 ∧ e = ofAddr a f := by
  unfold setAddr
  constructor
  · intro h
    split at h
    · next ha => cases h; exact ⟨ha, rfl⟩
    · cases h
  · rintro ⟨ha, rfl⟩
    rw [if_pos ha]

/-- A page-aligned physical address lies in the address field. -/
theorem and_mask_of_aligned {a : PhysAddr} (h : a.addr % 4096 = 0) :
    BitVec.ofNat 64 a.addr &&& physicalAddressMask = BitVec.ofNat 64 a.addr := by
  have hmask : ∀ i, i < 64 → physicalAddressMask.getLsbD i
      = decide (12 ≤ i ∧ i < 52) := by decide
  ext i hi
  rw [BitVec.getElem_and, ← BitVec.getLsbD_eq_getElem, ← BitVec.getLsbD_eq_getElem,
    hmask i hi, BitVec.getLsbD_ofNat]
  by_cases hin : 12 ≤ i ∧ i < 52
  · rw [decide_eq_true hin, Bool.and_true]
  · have hbit : a.addr.testBit i = false := by
      rcases Nat.lt_or_ge i 12 with hlo | hhi
      · have hm : (a.addr % 2 ^ 12).testBit i = false := by
          rw [show (2 : Nat) ^ 12 = 4096 from rfl, h]
          simp
        rwa [Nat.testBit_mod_two_pow, decide_eq_true hlo, Bool.true_and] at hm
      · apply Nat.testBit_lt_two_pow
        calc a.addr < 2 ^ 52 := a.valid
          _ ≤ 2 ^ i := Nat.pow_le_pow_right (by omega) (by omega)
    rw [hbit, Bool.and_false, Bool.false_and]

/-- Reading the address back from a written entry. -/
theorem addr_ofAddr {a : PhysAddr} (f : PageTableFlags) (h : a.addr % 4096 = 0) :
    (ofAddr a f).addr = a := by
  apply PhysAddr.ext
  show ((BitVec.ofNat 64 a.addr ||| f.bits) &&& physicalAddressMask).toNat = a.addr
  have hdist : (BitVec.ofNat 64 a.addr ||| f.bits) &&& physicalAddressMask
      = (BitVec.ofNat 64 a.addr &&& physicalAddressMask)
        ||| (f.bits &&& physicalAddressMask) := by
    ext i
    simp [Bool.and_or_distrib_right]
  rw [hdist, f.valid, and_mask_of_aligned h, BitVec.or_zero, BitVec.toNat_ofNat]
  have := a.valid
  omega

/-- Reading the flags back from a written entry. -/
theorem flags_ofAddr {a : PhysAddr} (f : PageTableFlags) (h : a.addr % 4096 = 0) :
    (ofAddr a f).flags = f := by
  apply PageTableFlags.ext
  show (BitVec.ofNat 64 a.addr ||| f.bits) &&& ~~~physicalAddressMask = f.bits
  have ha := and_mask_of_aligned h
  have hf := f.valid
  apply BitVec.eq_of_getLsbD_eq
  intro i hi
  have hai := congrArg (·.getLsbD i) ha
  have hfi := congrArg (·.getLsbD i) hf
  simp only [BitVec.getLsbD_and, BitVec.getLsbD_zero] at hai hfi
  rw [BitVec.getLsbD_and, BitVec.getLsbD_or, BitVec.getLsbD_not,
    decide_eq_true hi, Bool.true_and]
  revert hai hfi
  cases (BitVec.ofNat 64 a.addr).getLsbD i <;> cases f.bits.getLsbD i <;>
    cases physicalAddressMask.getLsbD i <;> simp

/-- An entry address is page aligned. -/
theorem addr_aligned (e : PageTableEntry) : e.addr.addr % 4096 = 0 := by
  show (e.entry &&& physicalAddressMask).toNat % 4096 = 0
  apply Nat.eq_of_testBit_eq
  intro i
  rw [show (4096 : Nat) = 2 ^ 12 from rfl, Nat.testBit_mod_two_pow,
    Nat.zero_testBit]
  by_cases hi : i < 12
  · have hmask : ∀ i, i < 12 → physicalAddressMask.getLsbD i = false := by decide
    rw [decide_eq_true hi, Bool.true_and, BitVec.testBit_toNat,
      BitVec.getLsbD_and, hmask i hi, Bool.and_false]
  · rw [decide_eq_false hi, Bool.false_and]

/-- An entry written with the present flag is in use. -/
theorem isUnused_ofAddr {a : PhysAddr} {f : PageTableFlags}
    (hf : f.contains PageTableFlags.PRESENT = true) :
    (ofAddr a f).isUnused = false := by
  have hbit : f.bits.getLsbD 0 = true := by
    have h : f.bits &&& 1#64 = 1#64 := eq_of_beq hf
    have h0 := congrArg (·.getLsbD 0) h
    simpa using h0
  have hne : (ofAddr a f).entry ≠ 0#64 := by
    intro h
    have h0 := congrArg (·.getLsbD 0) h
    simp only [ofAddr, BitVec.getLsbD_or, hbit, Bool.or_true] at h0
    cases h0
  exact beq_false_of_ne hne

/-- The bits outside the address field are those of the flags. -/
theorem getLsbD_ofAddr {a : PhysAddr} (f : PageTableFlags) (h : a.addr % 4096 = 0)
    {k : Nat} (hk : physicalAddressMask.getLsbD k = false) :
    (ofAddr a f).entry.getLsbD k = f.bits.getLsbD k := by
  have hbit : (BitVec.ofNat 64 a.addr).getLsbD k = false := by
    rw [← and_mask_of_aligned h, BitVec.getLsbD_and, hk, Bool.and_false]
  show (BitVec.ofNat 64 a.addr ||| f.bits).getLsbD k = _
  rw [BitVec.getLsbD_or, hbit, Bool.false_or]

end PageTableEntry

/-- Containing a one-bit flag is having that bit. -/
theorem PageTableFlags.contains_bit {f g : PageTableFlags} {k : Nat}
    (hg : g.bits = BitVec.twoPow 64 k) (hk : k < 64) :
    f.contains g = f.bits.getLsbD k := by
  unfold PageTableFlags.contains
  rw [hg, BitVec.and_twoPow]
  cases hb : f.bits.getLsbD k with
  | true => simp
  | false =>
      have hne : BitVec.twoPow 64 k ≠ 0#64 := by
        intro h
        have hbit := congrArg (·.getLsbD k) h
        simp [hk] at hbit
      simp [hne.symm]

/-! ## Page indices -/

/-- The nine address bits that index the table of a level. -/
def pageIndex (level : Nat) (v : VirtAddr) : Fin 512 :=
  ⟨v.addr / 2 ^ (9 * level + 3) % 512, Nat.mod_lt _ (by omega)⟩

/-- The page number of an address. -/
def VirtAddr.page (v : VirtAddr) : Nat := v.addr / 4096

/-- **SEPARATION.**  Canonical addresses with the same four indices lie in the
    same page: bits 48..64 are determined by bit 47. -/
theorem page_eq_of_pageIndex_eq {v w : VirtAddr}
    (h4 : pageIndex 4 v = pageIndex 4 w) (h3 : pageIndex 3 v = pageIndex 3 w)
    (h2 : pageIndex 2 v = pageIndex 2 w) (h1 : pageIndex 1 v = pageIndex 1 w) :
    v.page = w.page := by
  have hv := v.canonical
  have hw := w.canonical
  unfold IsCanonical at hv hw
  simp only [pageIndex, Fin.mk.injEq] at h4 h3 h2 h1
  unfold VirtAddr.page
  omega

theorem pageIndex_eq_of_page_eq {v w : VirtAddr} (h : v.page = w.page)
    {level : Nat} (h1 : 1 ≤ level) (h4 : level ≤ 4) :
    pageIndex level v = pageIndex level w := by
  unfold VirtAddr.page at h
  apply Fin.ext
  show v.addr / 2 ^ (9 * level + 3) % 512 = w.addr / 2 ^ (9 * level + 3) % 512
  have hexp : 9 * level + 3 = 12 + 9 * (level - 1) := by omega
  rw [hexp, Nat.pow_add, ← Nat.div_div_eq_div_mul, ← Nat.div_div_eq_div_mul]
  rw [show (2 : Nat) ^ 12 = 4096 from rfl, h]

/-! ## The hardware walk -/

/-- Physical memory as the paging structures in it: the 512 entries of the
    frame at a physical address. -/
abbrev PhysMem := Nat → Fin 512 → PageTableEntry

/-- The outcome of a successful walk: the physical address, the flags of the
    entry that ended it, and the rights that all levels grant together. -/
structure Translation where
  phys : Nat
  flags : PageTableFlags
  writable : Bool
  noExecute : Bool
deriving DecidableEq, Repr

/-- One level of the walk and those below it.  `level` counts down to 1; a
    present entry with bit 7 ends the walk early at levels 3 and 2 and is
    reserved at level 4. -/
def hardwareWalkFrom (mem : PhysMem) (v : VirtAddr) :
    Nat → Nat → Bool → Bool → Option Translation
  | 0, _, _, _ => none
  | level + 1, table, w, nx =>
      let e := mem table (pageIndex (level + 1) v)
      let w' := w && e.entry.getLsbD 1
      let nx' := nx || e.entry.getLsbD 63
      if e.entry.getLsbD 0 = false then none
      else if level = 0 then
        some ⟨e.addr.addr + v.addr % 4096, e.flags, w', nx'⟩
      else if e.entry.getLsbD 7 = true then
        if level = 3 then none
        else
          let size := 2 ^ (9 * level + 12)
          some ⟨e.addr.addr / size * size + v.addr % size, e.flags, w', nx'⟩
      else hardwareWalkFrom mem v level e.addr.addr w' nx'

/-- The x86-64 four-level walk of `v` from the frame in CR3. -/
def hardwareWalk (mem : PhysMem) (cr3 : PhysAddr) (v : VirtAddr) :
    Option Translation :=
  hardwareWalkFrom mem v 4 cr3.addr true false

section Walk

variable {mem : PhysMem} {v : VirtAddr} {table : Nat} {w nx : Bool}

/-- The walk stops at an unused entry. -/
theorem hardwareWalkFrom_unused {level : Nat}
    (he : mem table (pageIndex (level + 1) v) = PageTableEntry.new) :
    hardwareWalkFrom mem v (level + 1) table w nx = none := by
  rw [hardwareWalkFrom]
  dsimp only
  rw [he, if_pos]
  rfl

/-- The walk goes through a present entry that names a table. -/
theorem hardwareWalkFrom_table {level : Nat} {f : PhysAddr} {flags : PageTableFlags}
    (hlevel : 0 < level) (hal : f.addr % 4096 = 0)
    (he : mem table (pageIndex (level + 1) v) = PageTableEntry.ofAddr f flags)
    (h0 : flags.bits.getLsbD 0 = true) (h7 : flags.bits.getLsbD 7 = false) :
    hardwareWalkFrom mem v (level + 1) table w nx
      = hardwareWalkFrom mem v level f.addr (w && flags.bits.getLsbD 1)
          (nx || flags.bits.getLsbD 63) := by
  have hbit {k : Nat} (hk : physicalAddressMask.getLsbD k = false) :=
    PageTableEntry.getLsbD_ofAddr flags hal hk
  rw [hardwareWalkFrom]
  dsimp only
  rw [he, hbit (k := 0) (by decide), hbit (k := 1) (by decide),
    hbit (k := 7) (by decide), hbit (k := 63) (by decide), h0, h7,
    if_neg Bool.noConfusion, if_neg (by omega), if_neg Bool.noConfusion,
    PageTableEntry.addr_ofAddr flags hal]

/-- The walk ends at a present entry of a level-1 table. -/
theorem hardwareWalkFrom_leaf {f : PhysAddr} {flags : PageTableFlags}
    (hal : f.addr % 4096 = 0)
    (he : mem table (pageIndex 1 v) = PageTableEntry.ofAddr f flags)
    (h0 : flags.bits.getLsbD 0 = true) :
    hardwareWalkFrom mem v 1 table w nx
      = some ⟨f.addr + v.addr % 4096, flags, w && flags.bits.getLsbD 1,
          nx || flags.bits.getLsbD 63⟩ := by
  have hbit {k : Nat} (hk : physicalAddressMask.getLsbD k = false) :=
    PageTableEntry.getLsbD_ofAddr flags hal hk
  rw [hardwareWalkFrom]
  dsimp only
  rw [he, hbit (k := 0) (by decide), hbit (k := 1) (by decide),
    hbit (k := 63) (by decide), h0, if_neg Bool.noConfusion, if_pos rfl,
    PageTableEntry.addr_ofAddr flags hal, PageTableEntry.flags_ofAddr flags hal]

end Walk

end X86Paging
