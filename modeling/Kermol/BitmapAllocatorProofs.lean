import Kermol.ByteBitsProofs
import Kermol.WindowScanProofs
import Kermol.PageTableProofs

/-! # The bitmap allocator

    `BitmapAllocator` hands out runs of bits of a byte slice.  The slice has
    `n` bytes and `size` is `8 * n`, yet the bounds checks compare with
    `size * 8`: a request between `8 * n` and `64 * n` passes them and panics
    at the slice.

    The file has the code and one lemma for each of the two range operations:
    `flagRange_ok` says what every bit reads after `flag_range`, and
    `checkRange_ok` what `check_range` answers.  Setting goes bit by bit or
    byte by byte; clearing only takes effect on whole bytes, because `flag`
    writes with OR. -/

namespace KermolBitmap

open RustEffect X86Paging KermolFrameAllocator KermolPageTable ByteBits

/-! ## The code -/

/-- `size_in_pages` -/
def sizeInPages (sizeBytes : Nat) : Nat :=
  if sizeBytes % PAGE_SIZE ≠ 0 then sizeBytes / PAGE_SIZE + 1
  else sizeBytes / PAGE_SIZE

/-- `x86_64::align_up`: panics when the result does not fit in 64 bits. -/
def alignUp (addr align : Nat) : Panics Nat :=
  if addr % align = 0 then .ok addr
  else if (addr / align + 1) * align < 2 ^ 64 then .ok ((addr / align + 1) * align)
  else .error .overflow

/-- `BitmapAllocator`: the slice (its address and its bytes), the number of
    bits, and where the next search starts. -/
structure BitmapAllocator where
  ptr : VirtAddr
  bitmap : List Byte
  size : Nat
  lastAllocated : Nat
  size_eq : size = bitmap.length * 8
  bounded : bitmap.length < 2 ^ 52
  cursor : lastAllocated < 2 ^ 64
deriving DecidableEq, Repr

/-- A new allocator searches from the first bit on. -/
theorem cursor_zero : 0 < 2 ^ 64 := by decide

namespace BitmapAllocator

/-- The allocator with other bytes in its slice. -/
def write (self : BitmapAllocator) (bytes : List Byte)
    (h : bytes.length = self.bitmap.length) : BitmapAllocator where
  ptr := self.ptr
  bitmap := bytes
  size := self.size
  lastAllocated := self.lastAllocated
  size_eq := by rw [h]; exact self.size_eq
  bounded := by rw [h]; exact self.bounded
  cursor := self.cursor

/-- The allocator with another search position. -/
def setLastAllocated (self : BitmapAllocator) (pos : Nat) (h : pos < 2 ^ 64) :
    BitmapAllocator where
  ptr := self.ptr
  bitmap := self.bitmap
  size := self.size
  lastAllocated := pos
  size_eq := self.size_eq
  bounded := self.bounded
  cursor := h

/-- `BitmapAllocator::new`.  The linear allocator has panicked before a slice
    could exceed the 52-bit physical address space. -/
def new (size : Nat) (setAtInit : Bool) (frameAllocator : LinearFrameAllocator)
    (pageTable : RecursivePageTable) :
    Fallible MemoryError LinearFrameAllocator BitmapAllocator :=
  andThen (frameAllocator.allocContiguous (sizeInPages size)) fun phys alloc =>
    show Panics _ from do
      let virt ← VirtAddr.new (phys.addr + pageTable.internalOffset)
      if h : size < 2 ^ 52 then
        let bytes := List.replicate size (if setAtInit then 0xFF#8 else 0#8)
        return (.ok {
          ptr := virt
          bitmap := bytes
          size := size * 8
          lastAllocated := 0
          size_eq := by simp [bytes]
          bounded := by simpa [bytes] using h
          cursor := cursor_zero }, alloc)
      else .error .overflow

/-- `self.bitmap[i]` -/
def byteAt (self : BitmapAllocator) (i : Nat) : Panics Byte :=
  if i < self.bitmap.length then .ok (self.bitmap.getD i 0#8)
  else .error .indexOutOfBounds

/-- `in_range` -/
def inRange (self : BitmapAllocator) (bit : Nat) : Bool := bit < self.size * 8

/-- `range_in_bounds` -/
def rangeInBounds (self : BitmapAllocator) (hi : Nat) : Bool := hi ≤ self.size * 8

/-- What `scan_bits` adds to its sum at a position, as a test for zero: one
    bit, the slice repeated as often as needed. -/
def bitUsed (self : BitmapAllocator) (current : Nat) : Panics Bool := do
  let byte ← self.byteAt (current / 8 % (self.size / 8))
  return (byte &&& 1#8 <<< (current % 8)) != 0#8

/-- `scan_bits`: bit by bit, around the slice up to eight times. -/
def scanBits (self : BitmapAllocator) (target : Nat) : Panics (Except MemoryError Nat) :=
  WindowScan.scan self.bitUsed 1 (self.size * 8) target .allocationError
    (self.size * 8) self.lastAllocated

/-- What `scan_bytes` adds to its sum at a position: the byte of that index. -/
def byteUsed (self : BitmapAllocator) (current : Nat) : Panics Bool := do
  let byte ← self.byteAt (current % self.size)
  return byte != 0#8

/-- `scan_bytes`: the position counts bits, but indexes bytes. -/
def scanBytes (self : BitmapAllocator) (target : Nat) :
    Panics (Except MemoryError Nat) := do
  let start ← alignUp self.lastAllocated 8
  WindowScan.scan self.byteUsed 8 self.size target .allocationError self.size start

/-- `scan` -/
def scan (self : BitmapAllocator) (bits : Nat) : Panics (Except MemoryError Nat) :=
  if self.size ≤ bits then return .error .outOfBounds
  else if 16 < bits then self.scanBytes bits
  else do
    let target ← alignUp bits 8
    self.scanBits target

/-- `check` -/
def check (self : BitmapAllocator) (bit : Nat) (set : Bool) :
    Panics (Except MemoryError Bool) :=
  if self.inRange bit then do
    let byte ← self.byteAt (bit / 8)
    return .ok (set == ((byte &&& 1#8 <<< (bit % 8)) != 0#8))
  else return .error .outOfBounds

/-- `for bit in bits { check = check && self.check(bit, set)?; }`: nothing is
    read any more once the answer is no. -/
def checkBits (self : BitmapAllocator) (set : Bool) :
    List Nat → Bool → Panics (Except MemoryError Bool)
  | [], answer => return .ok answer
  | bit :: bits, answer =>
      if answer then do
        match ← self.check bit set with
        | .error e => return .error e
        | .ok answer => checkBits self set bits answer
      else checkBits self set bits false

/-- `check_range` -/
def checkRange (self : BitmapAllocator) (lo hi : Nat) (set : Bool) :
    Panics (Except MemoryError Bool) :=
  if self.rangeInBounds hi then
    if hi < lo then .error .overflow
    else if hi - lo < 8 then self.checkBits set (List.range' lo (hi - lo)) true
    else do
      let byteAlignedStart := lo + (8 - lo % 8) % 8
      let byteAlignedEnd := hi - hi % 8
      match ← self.checkBits set (List.range' lo (byteAlignedStart - lo)) true with
      | .error e => return .error e
      | .ok answer =>
          if byteAlignedStart / 8 ≤ byteAlignedEnd / 8
              ∧ byteAlignedEnd / 8 ≤ self.bitmap.length then
            let test : Byte := if set then 0xFF#8 else 0#8
            let slice := (self.bitmap.drop (byteAlignedStart / 8)).take
              (byteAlignedEnd / 8 - byteAlignedStart / 8)
            self.checkBits set (List.range' byteAlignedEnd (hi - byteAlignedEnd))
              (answer && slice.all (· == test))
          else .error .indexOutOfBounds
  else return .error .outOfBounds

/-- `flag`: a clear flag is OR-ed in like a set one. -/
def flag (self : BitmapAllocator) (bit : Nat) (flag : Bool) :
    Fallible MemoryError BitmapAllocator Unit :=
  if self.inRange bit then
    if bit / 8 < self.bitmap.length then
      .ok (.ok (), self.write (orBit self.bitmap bit flag) (length_orBit _ _ _))
    else .error .indexOutOfBounds
  else .ok (.error .outOfBounds, self)

/-- The long branch of `flag_range`: bits up to the first byte boundary, whole
    bytes, and the bits behind the last one. -/
def flagAligned (self : BitmapAllocator) (lo byteAlignedStart byteAlignedEnd hi : Nat)
    (flag : Bool) : Fallible MemoryError BitmapAllocator Unit :=
  andThen (forEach (fun bit s => s.flag bit flag)
      (List.range' lo (byteAlignedStart - lo)) self) fun _ s =>
    if byteAlignedStart / 8 ≤ byteAlignedEnd / 8
        ∧ byteAlignedEnd / 8 ≤ s.bitmap.length then
      forEach (fun bit s => s.flag bit flag)
        (List.range' byteAlignedEnd (hi - byteAlignedEnd))
        (s.write (fill s.bitmap (byteAlignedStart / 8) (byteAlignedEnd / 8)
          (if flag then 0xFF#8 else 0#8)) (length_fill _ _ _ _))
    else .error .indexOutOfBounds

/-- `flag_range` -/
def flagRange (self : BitmapAllocator) (lo hi : Nat) (flag : Bool) :
    Fallible MemoryError BitmapAllocator Unit :=
  if self.rangeInBounds hi then
    if hi < lo then .error .overflow
    else if hi - lo < 8 then
      forEach (fun bit s => s.flag bit flag) (List.range' lo (hi - lo)) self
    else self.flagAligned lo (lo + (8 - lo % 8) % 8) (hi - hi % 8) hi flag
  else .ok (.error .outOfBounds, self)

/-- `alloc`: the search position moves before the bits are set. -/
def alloc (self : BitmapAllocator) (bits : Nat) :
    Fallible MemoryError BitmapAllocator Nat :=
  show Panics _ from do
    match ← self.scan bits with
    | .error e => return (.error e, self)
    | .ok freeSpace =>
        -- `scan` may return a position behind the slice, where `flag_range` panics
        -- or answers `Err`
        if h : freeSpace + bits < 2 ^ 64 then
          andThen ((self.setLastAllocated (freeSpace + bits) h).flagRange
            freeSpace (freeSpace + bits) true) fun _ s => .ok (.ok freeSpace, s)
        else .error .overflow

/-- `free`: the bit is released if it reads as clear. -/
def free (self : BitmapAllocator) (bit : Nat) : Fallible MemoryError BitmapAllocator Unit :=
  show Panics _ from do
    if self.size ≤ bit then return (.error .outOfBounds, self)
    else
      match ← self.check bit false with
      | .error e => return (.error e, self)
      | .ok false => return (.error .doubleFree, self)
      | .ok true => self.flag bit false

/-- `free_range`: ends in `todo!()` when it gets that far. -/
def freeRange (self : BitmapAllocator) (lo hi : Nat) :
    Fallible MemoryError BitmapAllocator Unit :=
  show Panics _ from do
    match ← self.checkRange lo hi false with
    | .error e => return (.error e, self)
    | .ok false => return (.error .doubleFree, self)
    | .ok true => andThen (self.flagRange lo hi false) fun _ _ => .error .todo

/-! ## Reading -/

variable {a a' : BitmapAllocator}

theorem byteAt_ok {i : Nat} (h : i < a.bitmap.length) :
    a.byteAt i = .ok (a.bitmap.getD i 0#8) := by
  rw [byteAt, if_pos h]

theorem inRange_of_lt {bit : Nat} (h : bit < a.bitmap.length * 8) :
    a.inRange bit = true := by
  have hsize := a.size_eq
  simp [inRange]
  omega

/-- `check` of a bit of the slice. -/
theorem check_ok {bit : Nat} (set : Bool) (h : bit < a.bitmap.length * 8) :
    a.check bit set = .ok (.ok (set == bitAt a.bitmap bit)) := by
  rw [check, if_pos (inRange_of_lt h), byteAt_ok (by omega), ok_bind,
    and_shift_ne_zero _ (Nat.mod_lt _ (by omega))]
  rfl

/-- A loop of `check` over bits of the slice. -/
theorem checkBits_ok (set : Bool) {k : Nat} :
    ∀ {lo : Nat} {answer : Bool}, lo + k ≤ a.bitmap.length * 8 →
      a.checkBits set (List.range' lo k) answer
        = .ok (.ok (answer && allEq a.bitmap set lo k)) := by
  induction k with
  | zero => intro lo answer _; simp [checkBits, allEq]
  | succ k ih =>
      intro lo answer h
      rw [List.range'_succ, checkBits]
      cases answer with
      | true =>
          rw [if_pos rfl, check_ok set (by omega), ok_bind]
          dsimp only
          rw [ih (by omega), allEq, allEq, List.range'_succ]
          simp
      | false => rw [if_neg Bool.false_ne_true, ih (by omega)]; simp

/-- **`check_range`** tests every bit of the range. -/
theorem checkRange_ok (set : Bool) {lo hi : Nat} (hle : lo ≤ hi)
    (hhi : hi ≤ a.bitmap.length * 8) :
    a.checkRange lo hi set = .ok (.ok (allEq a.bitmap set lo (hi - lo))) := by
  have hsize := a.size_eq
  have hbounds : a.rangeInBounds hi = true := by
    simp [rangeInBounds]
    omega
  rw [checkRange, if_pos hbounds, if_neg (by omega)]
  by_cases hshort : hi - lo < 8
  · rw [if_pos hshort, checkBits_ok set (by omega), Bool.true_and]
  · rw [if_neg hshort]
    dsimp only
    -- the range is cut at the byte boundaries inside it
    generalize hs : lo + (8 - lo % 8) % 8 = start
    generalize he : hi - hi % 8 = stop
    have hstart : start / 8 * 8 = start := by omega
    have hstop : stop / 8 * 8 = stop := by omega
    have hmid : start ≤ stop := by omega
    rw [checkBits_ok set (by omega), ok_bind]
    dsimp only
    rw [if_pos (by omega), slice_all_eq set (by omega) (by omega), hstart, hstop,
      checkBits_ok set (by omega), Bool.true_and,
      allEq_append _ _ (by omega) hmid, allEq_append _ _ (by omega) (by omega)]

/-! ## Writing -/

/-- The other fields are as they were, and so is the length of the slice. -/
structure SameShape (a a' : BitmapAllocator) : Prop where
  ptr : a'.ptr = a.ptr
  length : a'.bitmap.length = a.bitmap.length
  lastAllocated : a'.lastAllocated = a.lastAllocated

theorem SameShape.refl (a : BitmapAllocator) : SameShape a a := ⟨rfl, rfl, rfl⟩

theorem SameShape.trans {a₁ : BitmapAllocator} (h₁ : SameShape a a₁)
    (h₂ : SameShape a₁ a') : SameShape a a' :=
  ⟨h₂.ptr.trans h₁.ptr, h₂.length.trans h₁.length,
    h₂.lastAllocated.trans h₁.lastAllocated⟩

theorem sameShape_write {bytes : List Byte} (h : bytes.length = a.bitmap.length) :
    SameShape a (a.write bytes h) := ⟨rfl, h, rfl⟩

theorem flag_ok {bit : Nat} (f : Bool) (h : bit < a.bitmap.length * 8) :
    a.flag bit f
      = .ok (.ok (), a.write (orBit a.bitmap bit f) (length_orBit _ _ _)) := by
  rw [flag, if_pos (inRange_of_lt h), if_pos (by omega)]

/-- A loop of `flag` over bits of the slice. -/
theorem flagBits_ok (f : Bool) {k : Nat} :
    ∀ {lo : Nat} {a : BitmapAllocator}, lo + k ≤ a.bitmap.length * 8 →
      ∃ a', forEach (fun bit s => BitmapAllocator.flag s bit f) (List.range' lo k) a
          = .ok (.ok (), a')
        ∧ SameShape a a'
        ∧ ∀ i, bitAt a'.bitmap i
          = (bitAt a.bitmap i || (f && decide (lo ≤ i ∧ i < lo + k))) := by
  induction k with
  | zero =>
      intro lo a _
      refine ⟨a, rfl, SameShape.refl a, fun i => ?_⟩
      rw [decide_eq_false (by omega), Bool.and_false, Bool.or_false]
  | succ k ih =>
      intro lo a h
      rw [List.range'_succ, forEach_cons, flag_ok f (by omega), andThen_ok]
      have hlen : (orBit a.bitmap lo f).length = a.bitmap.length := length_orBit _ _ _
      obtain ⟨a', heq, hshape, hbits⟩ := ih (a := a.write (orBit a.bitmap lo f) hlen)
        (show lo + 1 + k ≤ (orBit a.bitmap lo f).length * 8 by omega)
      refine ⟨a', heq, (sameShape_write hlen).trans hshape, fun i => ?_⟩
      rw [hbits i]
      show (bitAt (orBit a.bitmap lo f) i || _) = _
      rw [bitAt_orBit f (by omega), Bool.or_assoc, ← Bool.and_or_distrib_left,
        ← Bool.decide_or]
      congr 3
      exact propext (by omega)

/-- A loop of `flag` that leaves the slice does not return. -/
theorem flagBits_panics (f : Bool) {k : Nat} :
    ∀ {lo : Nat} {a a' : BitmapAllocator}, 0 < k →
      a.bitmap.length * 8 < lo + k →
      forEach (fun bit s => BitmapAllocator.flag s bit f) (List.range' lo k) a
        ≠ .ok (.ok (), a') := by
  induction k with
  | zero => intro lo a a' hk; exact absurd hk (Nat.lt_irrefl 0)
  | succ k ih =>
      intro lo a a' _ h
      rw [List.range'_succ, forEach_cons]
      by_cases hlo : lo < a.bitmap.length * 8
      · rw [flag_ok f hlo, andThen_ok]
        refine ih (by omega) ?_
        show (orBit a.bitmap lo f).length * 8 < _
        rw [length_orBit]
        omega
      · -- the first bit is already outside: refused or an index panic
        rw [flag]
        by_cases hr : a.inRange lo = true
        · rw [if_pos hr, if_neg (by omega)]
          exact nofun
        · rw [if_neg hr]
          exact nofun

/-- What bit `i` reads after `flag_range(lo..hi, f)`: whole bytes inside a range
    of at least eight bits are overwritten, the other bits of the range only
    OR-ed. -/
def flagged (lo hi : Nat) (f old : Bool) (i : Nat) : Bool :=
  if 8 ≤ hi - lo ∧ lo + (8 - lo % 8) % 8 ≤ i ∧ i < hi - hi % 8 then f
  else old || (f && decide (lo ≤ i ∧ i < hi))

theorem flagAligned_ok (f : Bool) {lo start stop hi : Nat} (h₁ : lo ≤ start)
    (h₂ : start ≤ stop) (h₃ : stop ≤ hi) (hhi : hi ≤ a.bitmap.length * 8)
    (hstart : start / 8 * 8 = start) (hstop : stop / 8 * 8 = stop) :
    ∃ a', a.flagAligned lo start stop hi f = .ok (.ok (), a')
      ∧ SameShape a a'
      ∧ ∀ i, bitAt a'.bitmap i
        = if start ≤ i ∧ i < stop then f
          else bitAt a.bitmap i || (f && decide (lo ≤ i ∧ i < hi)) := by
  obtain ⟨s₁, heq₁, hshape₁, hbits₁⟩ := flagBits_ok f (a := a)
    (show lo + (start - lo) ≤ _ by omega)
  have hlen₁ := hshape₁.length
  have hlen : (fill s₁.bitmap (start / 8) (stop / 8)
      (if f then 0xFF#8 else 0#8)).length = s₁.bitmap.length := length_fill _ _ _ _
  obtain ⟨s₂, heq₂, hshape₂, hbits₂⟩ := flagBits_ok
    (a := s₁.write (fill s₁.bitmap (start / 8) (stop / 8)
      (if f then 0xFF#8 else 0#8)) hlen) f
    (show stop + (hi - stop) ≤ (fill s₁.bitmap _ _ _).length * 8 by omega)
  refine ⟨s₂, ?_, (hshape₁.trans (sameShape_write hlen)).trans hshape₂, fun i => ?_⟩
  · rw [flagAligned, heq₁, andThen_ok, if_pos (by omega)]
    exact heq₂
  · have hfill : ∀ j, j < 8 → (if f then 0xFF#8 else 0#8 : Byte).getLsbD j = f := by
      cases f <;> decide
    rw [hbits₂ i]
    show (bitAt (fill s₁.bitmap _ _ _) i || _) = _
    rw [bitAt_fill _ (by omega), hstart, hstop]
    by_cases hin : start ≤ i ∧ i < stop
    · rw [if_pos hin, if_pos hin, hfill _ (Nat.mod_lt _ (by omega)),
        decide_eq_false (by omega), Bool.and_false, Bool.or_false]
    · rw [if_neg hin, if_neg hin, hbits₁ i, Bool.or_assoc,
        ← Bool.and_or_distrib_left, ← Bool.decide_or]
      congr 3
      exact propext (by omega)

/-- **`flag_range`**: every bit afterwards. -/
theorem flagRange_ok (f : Bool) {lo hi : Nat} (hle : lo ≤ hi)
    (hhi : hi ≤ a.bitmap.length * 8) :
    ∃ a', a.flagRange lo hi f = .ok (.ok (), a') ∧ SameShape a a'
      ∧ ∀ i, bitAt a'.bitmap i = flagged lo hi f (bitAt a.bitmap i) i := by
  have hsize := a.size_eq
  have hbounds : a.rangeInBounds hi = true := by
    simp [rangeInBounds]
    omega
  rw [flagRange, if_pos hbounds, if_neg (by omega)]
  by_cases hshort : hi - lo < 8
  · rw [if_pos hshort]
    obtain ⟨a', heq, hshape, hbits⟩ := flagBits_ok f (a := a)
      (show lo + (hi - lo) ≤ _ by omega)
    refine ⟨a', heq, hshape, fun i => ?_⟩
    rw [hbits i, flagged, if_neg (by omega), Nat.add_sub_cancel' hle]
  · rw [if_neg hshort]
    obtain ⟨a', heq, hshape, hbits⟩ := flagAligned_ok f (a := a)
      (show lo ≤ lo + (8 - lo % 8) % 8 by omega)
      (show lo + (8 - lo % 8) % 8 ≤ hi - hi % 8 by omega) (by omega) hhi (by omega)
      (by omega)
    refine ⟨a', heq, hshape, fun i => ?_⟩
    rw [hbits i, flagged]
    exact if_congr (by omega) rfl rfl

/-- A loop of `flag` keeps the shape, however it ends. -/
theorem flagBits_shape {f : Bool} {bits : List Nat} {r : Except MemoryError Unit}
    (h : forEach (fun bit s => BitmapAllocator.flag s bit f) bits a = .ok (r, a')) :
    SameShape a a' := by
  refine forEach_invariant (P := SameShape a) ?_ (SameShape.refl a) h
  intro bit _ s r s' hs hstep
  rw [flag] at hstep
  split at hstep
  · split at hstep
    · cases hstep
      exact hs.trans (sameShape_write _)
    · cases hstep
  · cases hstep
    exact hs

/-- A loop of `flag` below the checked bound is never refused. -/
theorem flagBits_not_err {f : Bool} {bits : List Nat} {r : Except MemoryError Unit} :
    ∀ {a a' : BitmapAllocator}, (∀ bit ∈ bits, bit < a.size * 8) →
      forEach (fun bit s => BitmapAllocator.flag s bit f) bits a = .ok (r, a') →
      r = .ok () := by
  induction bits with
  | nil =>
      intro a a' _ h
      cases h
      rfl
  | cons bit bits ih =>
      intro a a' hin h
      have hr : a.inRange bit = true := by
        simp [inRange, hin bit List.mem_cons_self]
      rw [forEach_cons, flag, if_pos hr] at h
      split at h
      · rw [andThen_ok] at h
        refine ih (fun b hb => ?_) h
        exact hin b (List.mem_cons_of_mem bit hb)
      · cases h

/-- `flag_range` is refused only behind eight times its bits, and then changes
    nothing. -/
theorem flagRange_refused {f : Bool} {lo hi : Nat} {e : MemoryError}
    (h : a.flagRange lo hi f = .ok (.error e, a')) :
    a.bitmap.length * 64 < hi ∧ e = .outOfBounds ∧ a' = a := by
  have hsize := a.size_eq
  rw [flagRange] at h
  split at h
  · next hbounds =>
      have hhi : hi ≤ a.size * 8 := by simpa [rangeInBounds] using hbounds
      split at h
      · cases h
      · split at h
        · have hr := flagBits_not_err (fun bit hbit => by
            have := List.mem_range'_1.mp hbit
            omega) h
          cases hr
        · rw [flagAligned] at h
          rcases andThen_cases h with ⟨e', hhead, -⟩ | ⟨_, s₁, hhead, hrest⟩
          · have hr := flagBits_not_err (fun bit hbit => by
              have := List.mem_range'_1.mp hbit
              omega) hhead
            cases hr
          · have hlen := (flagBits_shape hhead).length
            have hsize₁ : s₁.size = a.size := by rw [s₁.size_eq, a.size_eq, hlen]
            split at hrest
            · have hr := flagBits_not_err (fun bit hbit => by
                have := List.mem_range'_1.mp hbit
                show bit < s₁.size * 8
                omega) hrest
              cases hr
            · cases hrest
  · next hbounds =>
      have hhi : a.size * 8 < hi := by simpa [rangeInBounds] using hbounds
      cases h
      exact ⟨by omega, rfl, rfl⟩

/-- The empty range leaves the bitmap alone. -/
theorem flagRange_self {f : Bool} {lo : Nat} {r : Except MemoryError Unit}
    (h : a.flagRange lo lo f = .ok (r, a')) : a' = a := by
  rw [flagRange] at h
  split at h
  · rw [if_neg (by omega), if_pos (by omega), Nat.sub_self, List.range'_zero,
      forEach_nil] at h
    cases h
    rfl
  · cases h
    rfl

/-- `flag_range` of a range that is not empty returns `Ok` only inside the
    slice. -/
theorem flagRange_bound {f : Bool} {lo hi : Nat} (hlt : lo < hi)
    (h : a.flagRange lo hi f = .ok (.ok (), a')) :
    hi ≤ a.bitmap.length * 8 := by
  by_contra hout
  rw [flagRange] at h
  split at h
  · rw [if_neg (by omega)] at h
    split at h
    · exact flagBits_panics f (by omega) (by omega) h
    · rw [flagAligned] at h
      obtain ⟨_, s₁, hhead, hrest⟩ := andThen_eq_ok h
      have hlen := (flagBits_shape hhead).length
      split at hrest
      · -- whole bytes up to the end would fit, so bits are left behind them
        refine flagBits_panics f (k := hi - (hi - hi % 8)) (by omega) ?_ hrest
        show (fill s₁.bitmap _ _ _).length * 8 < _
        rw [length_fill]
        omega
      · cases hrest
  · cases h

/-- `flag_range` changes nothing but bits. -/
theorem flagRange_shape {f : Bool} {lo hi : Nat}
    (h : a.flagRange lo hi f = .ok (.ok (), a')) : SameShape a a' := by
  rcases Nat.lt_trichotomy lo hi with hlt | rfl | hgt
  · obtain ⟨a₁, heq, hshape, -⟩ := flagRange_ok f hlt.le (flagRange_bound hlt h)
    cases heq.symm.trans h
    exact hshape
  · rw [flagRange_self h]
    exact .refl a
  · rw [flagRange, if_pos hgt] at h
    split at h
    · cases h
    · cases h

/-- When `flag_range` returns `Ok`: a range that is not empty must lie in the
    slice; an empty one is only compared with eight times its bits. -/
theorem flagRange_returns_iff {lo hi : Nat} (f : Bool) (hle : lo ≤ hi) :
    (∃ a', a.flagRange lo hi f = .ok (.ok (), a'))
      ↔ if lo < hi then hi ≤ a.bitmap.length * 8 else hi ≤ a.bitmap.length * 64 := by
  have hsize := a.size_eq
  split
  · next hlt =>
      constructor
      · rintro ⟨a', h⟩
        exact flagRange_bound hlt h
      · intro hhi
        obtain ⟨a', heq, -⟩ := flagRange_ok f hle hhi
        exact ⟨a', heq⟩
  · next hge =>
      have hempty : hi = lo := by omega
      subst hempty
      have hbounds : a.rangeInBounds hi = decide (hi ≤ a.bitmap.length * 64) := by
        rw [rangeInBounds, hsize]
        congr 1
        exact propext (by omega)
      rw [flagRange, hbounds]
      constructor
      · rintro ⟨a', h⟩
        by_contra hout
        rw [if_neg (by simpa using hout)] at h
        cases h
      · intro hhi
        rw [if_pos (by simpa using hhi), if_neg (by omega), if_pos (by omega),
          Nat.sub_self, List.range'_zero]
        exact ⟨a, rfl⟩

end BitmapAllocator

/-- Where the direct map has the slices of the examples. -/
def samplePtr : VirtAddr := ⟨0xFFFF800000200000, by decide⟩

end KermolBitmap
