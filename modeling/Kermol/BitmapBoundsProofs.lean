import Kermol.BitmapAllocatorProofs

/-! # Testing, assigning, freeing, and the bounds of a bitmap

    What `check_range`, `flag_range`, `free`, `free_range` and the bounds checks
    are for can be said in one line each: test every bit of a range, assign a
    flag to every bit of it, clear what was set, refuse what lies behind the
    slice.  Each section states that line as a property of one call and then
    proves for which calls the code has it.

    `checkRange_exact`: testing is always right.  `assigns_iff`: setting always
    works, clearing only where the bits outside whole bytes are clear already.
    `bounds_iff`: a call is right below the `8 * n` bits of the slice and from
    `64 * n` on, and wrong in between.  `freeing_iff`: `free_range` is only right
    where it has to refuse. -/

namespace KermolBitmapBounds

open RustEffect KermolFrameAllocator KermolBitmap BitmapAllocator ByteBits

variable {a a' : BitmapAllocator} {lo hi bit : Nat}

/-- An allocator over the given bytes. -/
def ofBytes (bytes : List Byte) (cursor : Nat) (hbytes : bytes.length < 2 ^ 52)
    (hcursor : cursor < 2 ^ 64) : BitmapAllocator where
  ptr := samplePtr
  bitmap := bytes
  size := bytes.length * 8
  lastAllocated := cursor
  size_eq := rfl
  bounded := hbytes
  cursor := hcursor

/-! ## Testing -/

/-- **TESTING, EXACTLY.**  For every range of the slice `check_range` returns, and
    answers yes if and only if every bit of the range reads as asked for. -/
theorem checkRange_exact (a : BitmapAllocator) (lo hi : Nat) (set : Bool) (hle : lo ≤ hi)
    (hhi : hi ≤ 8 * a.bitmap.length) :
    ∃ answer, a.checkRange lo hi set = .ok (.ok answer)
      ∧ (answer = true ↔ ∀ i, lo ≤ i → i < hi → bitAt a.bitmap i = set) := by
  refine ⟨allEq a.bitmap set lo (hi - lo), checkRange_ok set hle (by omega), ?_⟩
  rw [allEq_iff, Nat.add_sub_cancel' hle]

/-- Bits 1 to 9 of two bytes: the byte boundaries inside the range coincide, so no
    whole byte is compared. -/
theorem checkRange_exact_sample :
    ∃ answer, (ofBytes [0xFE#8, 0x01#8] 0 (by decide) (by decide)).checkRange 1 9 true
        = .ok (.ok answer) ∧ answer = true := by
  obtain ⟨answer, hcall, hiff⟩ := checkRange_exact
    (ofBytes [0xFE#8, 0x01#8] 0 (by decide) (by decide)) 1 9 true (by decide) (by decide)
  refine ⟨answer, hcall, hiff.mpr fun i hlo hhi => ?_⟩
  revert hlo
  revert i
  decide

/-! ## Assigning -/

/-- `flag_range` returns `Ok`, and afterwards every bit of the range reads as the
    flag and every other bit as before. -/
def Assigns (a : BitmapAllocator) (lo hi : Nat) (f : Bool) : Prop :=
  ∃ a', a.flagRange lo hi f = .ok (.ok (), a') ∧ SameShape a a'
    ∧ ∀ i, bitAt a'.bitmap i = if lo ≤ i ∧ i < hi then f else bitAt a.bitmap i

/-- A bit of the range outside the whole bytes that are filled: any bit of a
    range shorter than eight, else one before the first byte boundary or behind
    the last. -/
def Edge (lo hi i : Nat) : Prop :=
  lo ≤ i ∧ i < hi ∧ (hi < lo + 8 ∨ i < lo + (8 - lo % 8) % 8 ∨ hi - hi % 8 ≤ i)

/-- Setting is right for every bit. -/
theorem flagged_true (old : Bool) (i : Nat) :
    flagged lo hi true old i = if lo ≤ i ∧ i < hi then true else old := by
  rw [flagged]
  by_cases hin : lo ≤ i ∧ i < hi
  · rw [if_pos hin, decide_eq_true hin]
    simp
  · rw [if_neg hin, decide_eq_false hin, if_neg (by omega)]
    simp

/-- Clearing is right for a bit unless it is a set bit at an edge. -/
theorem flagged_false_iff (old : Bool) (i : Nat) :
    flagged lo hi false old i = (if lo ≤ i ∧ i < hi then false else old)
      ↔ (Edge lo hi i → old = false) := by
  rw [flagged, Edge, Bool.false_and, Bool.or_false]
  by_cases hin : lo ≤ i ∧ i < hi
  · rw [if_pos hin]
    by_cases hmid : 8 ≤ hi - lo ∧ lo + (8 - lo % 8) % 8 ≤ i ∧ i < hi - hi % 8
    · rw [if_pos hmid]
      exact iff_of_true rfl fun hedge => by omega
    · rw [if_neg hmid]
      exact ⟨fun hold _ => hold, fun hold => hold ⟨hin.1, hin.2, by omega⟩⟩
  · rw [if_neg hin, if_neg (by omega)]
    exact iff_of_true rfl fun hedge => absurd ⟨hedge.1, hedge.2.1⟩ hin

/-- **ASSIGNMENT, EXACTLY.**  `flag_range` assigns a range of the slice if and
    only if the flag is set, or every bit of the range outside the filled bytes
    is clear already. -/
theorem assigns_iff (a : BitmapAllocator) (lo hi : Nat) (f : Bool) (hle : lo ≤ hi)
    (hhi : hi ≤ a.bitmap.length * 8) :
    Assigns a lo hi f ↔ f = true ∨ ∀ i, Edge lo hi i → bitAt a.bitmap i = false := by
  obtain ⟨a₁, heq, hshape, hbits⟩ := flagRange_ok f hle hhi
  have hassigns : Assigns a lo hi f
      ↔ ∀ i, flagged lo hi f (bitAt a.bitmap i) i
        = if lo ≤ i ∧ i < hi then f else bitAt a.bitmap i := by
    constructor
    · rintro ⟨a₂, heq₂, -, hbits₂⟩ i
      cases heq.symm.trans heq₂
      rw [← hbits i, hbits₂ i]
    · intro h
      exact ⟨a₁, heq, hshape, fun i => (hbits i).trans (h i)⟩
  rw [hassigns]
  cases f with
  | true => exact iff_of_true (fun i => flagged_true _ i) (Or.inl rfl)
  | false =>
      rw [or_iff_right Bool.false_ne_true]
      exact forall_congr' fun i => flagged_false_iff _ i

/-- Clearing the bits 4 to 20 of three bytes, the outer ones clear at the edges. -/
theorem assigns_iff_sample :
    Assigns (ofBytes [0x0F#8, 0xFF#8, 0xF0#8] 0 (by decide) (by decide)) 4 20 false := by
  refine (assigns_iff _ 4 20 false (by decide) (by decide)).mpr (Or.inr ?_)
  rintro i ⟨h₁, h₂, h₃⟩
  have hi : i < 24 := by omega
  revert h₁ h₂ h₃
  revert i
  decide

/-- Clearing one bit of a used byte leaves it set. -/
theorem clearing_one_bit_does_nothing :
    (ofBytes [0xFF#8] 0 (by decide) (by decide)).flagRange 0 1 false
        = .ok (.ok (), ofBytes [0xFF#8] 0 (by decide) (by decide))
      ∧ ¬ Assigns (ofBytes [0xFF#8] 0 (by decide) (by decide)) 0 1 false := by
  have hcall : (ofBytes [0xFF#8] 0 (by decide) (by decide)).flagRange 0 1 false
      = .ok (.ok (), ofBytes [0xFF#8] 0 (by decide) (by decide)) := by decide
  refine ⟨hcall, ?_⟩
  rintro ⟨a', heq, -, hbits⟩
  cases hcall.symm.trans heq
  exact absurd (hbits 0) (by decide)

/-! ## Bounds -/

/-- A call does not panic, and answers `OutOfBounds` exactly in the case
    `out`. -/
def Reports {α : Type} (out : Prop) (x : Panics (Except MemoryError α)) : Prop :=
  (∃ r, x = .ok r) ∧ (x = .ok (.error .outOfBounds) ↔ out)

/-- The same for a call that may write: it then leaves the allocator as it
    was. -/
def ReportsKept {α : Type} (a : BitmapAllocator) (out : Prop)
    (x : Fallible MemoryError BitmapAllocator α) : Prop :=
  (∃ r a', x = .ok (r, a')) ∧ ((∃ a', x = .ok (.error .outOfBounds, a')) ↔ out)
    ∧ (out → ∀ r a', x = .ok (r, a') → a' = a)

/-- The three operations on one bit report what lies behind the slice. -/
structure BitReported (a : BitmapAllocator) (bit : Nat) : Prop where
  check : ∀ set, Reports (a.bitmap.length * 8 ≤ bit) (a.check bit set)
  flag : ∀ f, ReportsKept a (a.bitmap.length * 8 ≤ bit) (a.flag bit f)
  free : ReportsKept a (a.bitmap.length * 8 ≤ bit) (a.free bit)

/-- So do the two on a range. -/
structure RangeReported (a : BitmapAllocator) (lo hi : Nat) : Prop where
  checkRange : ∀ set, Reports (a.bitmap.length * 8 < hi) (a.checkRange lo hi set)
  flagRange : ∀ f, ReportsKept a (a.bitmap.length * 8 < hi) (a.flagRange lo hi f)

theorem reports_ok {α : Type} {out : Prop} (hin : ¬ out) (r : α) :
    Reports out (.ok (.ok r)) :=
  ⟨⟨_, rfl⟩, iff_of_false (fun h => by cases h) hin⟩

theorem reports_err {α : Type} {out : Prop} (hout : out) :
    Reports (α := α) out (.ok (.error .outOfBounds)) :=
  ⟨⟨_, rfl⟩, iff_of_true rfl hout⟩

theorem reportsKept_ok {α : Type} {out : Prop} (hin : ¬ out) (r : α) :
    ReportsKept a out (.ok (.ok r, a')) :=
  ⟨⟨_, _, rfl⟩, iff_of_false (by rintro ⟨_, h⟩; cases h) hin, fun hout => absurd hout hin⟩

theorem reportsKept_err {α : Type} {out : Prop} (hout : out) :
    ReportsKept (α := α) a out (.ok (.error .outOfBounds, a)) := by
  refine ⟨⟨_, _, rfl⟩, iff_of_true ⟨a, rfl⟩ hout, fun _ r a' h => ?_⟩
  cases h
  rfl

theorem inRange_iff : a.inRange bit = true ↔ bit < a.bitmap.length * 64 := by
  have hsize := a.size_eq
  rw [inRange, decide_eq_true_iff]
  omega

theorem rangeInBounds_iff : a.rangeInBounds hi = true ↔ hi ≤ a.bitmap.length * 64 := by
  have hsize := a.size_eq
  rw [rangeInBounds, decide_eq_true_iff]
  omega

theorem check_far (set : Bool) (h : a.bitmap.length * 64 ≤ bit) :
    a.check bit set = .ok (.error .outOfBounds) := by
  rw [check, if_neg (by rw [inRange_iff]; omega)]
  rfl

theorem flag_far (f : Bool) (h : a.bitmap.length * 64 ≤ bit) :
    a.flag bit f = .ok (.error .outOfBounds, a) := by
  rw [flag, if_neg (by rw [inRange_iff]; omega)]

/-- Between the slice and the checked bound `flag` indexes behind the slice. -/
theorem flag_between (f : Bool) (h₁ : a.bitmap.length * 8 ≤ bit)
    (h₂ : bit < a.bitmap.length * 64) : a.flag bit f = .error .indexOutOfBounds := by
  rw [flag, if_pos (inRange_iff.mpr h₂), if_neg (by omega)]

/-- Clearing one bit writes the byte back. -/
theorem flag_false (h : bit < a.bitmap.length * 8) : a.flag bit false = .ok (.ok (), a) := by
  have hsame : orBit a.bitmap bit false = a.bitmap := by
    rw [orBit, ofFlag, if_neg Bool.false_ne_true, List.getD_eq_getElem _ _ (by omega)]
    simp
  rw [flag_ok false h]
  congr 2
  cases a
  simp only [write]
  congr 1

/-- **`free`** of a bit of the slice: `Ok` if it reads as clear, and no bit
    changes. -/
theorem free_ok (h : bit < a.bitmap.length * 8) :
    a.free bit = .ok (if bitAt a.bitmap bit then .error .doubleFree else .ok (), a) := by
  have hsize := a.size_eq
  rw [free, if_neg (by omega), check_ok false h, ok_bind]
  cases hbit : bitAt a.bitmap bit with
  | true => rfl
  | false => exact flag_false h

/-- `free` compares with the right bound. -/
theorem free_reported (a : BitmapAllocator) (bit : Nat) :
    ReportsKept a (a.bitmap.length * 8 ≤ bit) (a.free bit) := by
  have hsize := a.size_eq
  by_cases hout : a.bitmap.length * 8 ≤ bit
  · rw [free, if_pos (by omega)]
    exact reportsKept_err hout
  · rw [free_ok (by omega)]
    cases bitAt a.bitmap bit with
    | true =>
        exact ⟨⟨_, _, rfl⟩, iff_of_false (by rintro ⟨_, h⟩; cases h) hout,
          fun h => absurd h hout⟩
    | false => exact reportsKept_ok hout ()

/-- **ONE BIT.** -/
theorem bitReported_iff :
    BitReported a bit ↔ bit < a.bitmap.length * 8 ∨ a.bitmap.length * 64 ≤ bit := by
  constructor
  · intro h
    by_contra hbetween
    obtain ⟨⟨r, a', hok⟩, -⟩ := h.flag true
    rw [flag_between true (by omega) (by omega)] at hok
    cases hok
  · rintro (hin | hfar)
    · have hnot : ¬ a.bitmap.length * 8 ≤ bit := by omega
      refine ⟨fun set => ?_, fun f => ?_, free_reported a bit⟩
      · rw [check_ok set hin]
        exact reports_ok hnot _
      · rw [flag_ok f hin]
        exact reportsKept_ok hnot ()
    · have hout : a.bitmap.length * 8 ≤ bit := by omega
      refine ⟨fun set => ?_, fun f => ?_, free_reported a bit⟩
      · rw [check_far set hfar]
        exact reports_err hout
      · rw [flag_far f hfar]
        exact reportsKept_err hout

/-- **ONE RANGE.** -/
theorem rangeReported_iff (hle : lo ≤ hi) :
    RangeReported a lo hi ↔ hi ≤ a.bitmap.length * 8 ∨ a.bitmap.length * 64 < hi := by
  constructor
  · intro h
    by_contra hbetween
    -- `flag_range` is refused only behind the checked bound
    obtain ⟨-, hout, -⟩ := h.flagRange true
    obtain ⟨a', hrefused⟩ := hout.mpr (by omega)
    have hbound := (flagRange_refused hrefused).1
    omega
  · rintro (hin | hfar)
    · have hnot : ¬ a.bitmap.length * 8 < hi := by omega
      refine ⟨fun set => ?_, fun f => ?_⟩
      · rw [checkRange_ok set hle hin]
        exact reports_ok hnot _
      · obtain ⟨a', heq, -⟩ := flagRange_ok f hle hin
        rw [heq]
        exact reportsKept_ok hnot ()
    · have hout : a.bitmap.length * 8 < hi := by omega
      have hbounds : ¬ a.rangeInBounds hi = true := by
        rw [rangeInBounds_iff]
        omega
      refine ⟨fun set => ?_, fun f => ?_⟩
      · rw [checkRange, if_neg hbounds]
        exact reports_err hout
      · rw [flagRange, if_neg hbounds]
        exact reportsKept_err hout

/-- **THE BOUNDS, EXACTLY.**  With `n` bytes, the operations report what lies
    behind the slice if and only if it does not lie between `8 * n` and
    `64 * n`. -/
theorem bounds_iff (a : BitmapAllocator) (bit lo hi : Nat) (hle : lo ≤ hi) :
    (BitReported a bit ↔ bit < a.bitmap.length * 8 ∨ a.bitmap.length * 64 ≤ bit)
      ∧ (RangeReported a lo hi
        ↔ hi ≤ a.bitmap.length * 8 ∨ a.bitmap.length * 64 < hi) :=
  ⟨bitReported_iff, rangeReported_iff hle⟩

theorem bounds_iff_sample :
    BitReported (ofBytes [0#8, 0#8] 0 (by decide) (by decide)) 128
      ∧ RangeReported (ofBytes [0#8, 0#8] 0 (by decide) (by decide)) 3 16 := by
  obtain ⟨hbit, hrange⟩ :=
    bounds_iff (ofBytes [0#8, 0#8] 0 (by decide) (by decide)) 128 3 16 (by decide)
  exact ⟨hbit.mpr (by decide), hrange.mpr (by decide)⟩

/-- Bit 16 of two bytes passes the check and panics at the slice. -/
theorem bit_behind_slice_panics :
    (ofBytes [0#8, 0#8] 0 (by decide) (by decide)).check 16 true = .error .indexOutOfBounds
      ∧ (ofBytes [0#8, 0#8] 0 (by decide) (by decide)).flagRange 8 17 true
        = .error .indexOutOfBounds
      ∧ ¬ BitReported (ofBytes [0#8, 0#8] 0 (by decide) (by decide)) 16
      ∧ ¬ RangeReported (ofBytes [0#8, 0#8] 0 (by decide) (by decide)) 8 17 := by
  refine ⟨by decide, by decide, ?_, ?_⟩
  · rw [bitReported_iff]
    decide
  · rw [rangeReported_iff (by decide)]
    decide

/-! ## Freeing -/

/-- What `free_range` is for: bits that are all set are cleared, and no other;
    anything else is a double free and changes nothing. -/
structure FreesRange (a : BitmapAllocator) (lo hi : Nat) : Prop where
  used : (∀ i, lo ≤ i → i < hi → bitAt a.bitmap i = true) →
    ∃ a', a.freeRange lo hi = .ok (.ok (), a')
      ∧ ∀ i, bitAt a'.bitmap i = if lo ≤ i ∧ i < hi then false else bitAt a.bitmap i
  unused : ¬ (∀ i, lo ≤ i → i < hi → bitAt a.bitmap i = true) →
    a.freeRange lo hi = .ok (.error .doubleFree, a)

/-- **`free_range`** of a range of the slice: `todo!()` if every bit reads as
    clear, `DoubleFree` otherwise. -/
theorem freeRange_eq (hle : lo ≤ hi) (hhi : hi ≤ a.bitmap.length * 8) :
    a.freeRange lo hi
      = if allEq a.bitmap false lo (hi - lo) then .error .todo
        else .ok (.error .doubleFree, a) := by
  rw [freeRange, checkRange_ok false hle hhi, ok_bind]
  cases allEq a.bitmap false lo (hi - lo) with
  | true =>
      obtain ⟨a', heq, -⟩ := flagRange_ok false hle hhi
      dsimp only
      rw [heq]
      rfl
  | false => rfl

theorem freesRange_iff (hle : lo ≤ hi) (hhi : hi ≤ a.bitmap.length * 8) :
    FreesRange a lo hi
      ↔ (∃ i, lo ≤ i ∧ i < hi ∧ bitAt a.bitmap i = true)
        ∧ ∃ i, lo ≤ i ∧ i < hi ∧ bitAt a.bitmap i = false := by
  have hclear : allEq a.bitmap false lo (hi - lo) = true
      ↔ ¬ ∃ i, lo ≤ i ∧ i < hi ∧ bitAt a.bitmap i = true := by
    rw [allEq_iff, Nat.add_sub_cancel' hle]
    simp
  have hset : (∀ i, lo ≤ i → i < hi → bitAt a.bitmap i = true)
      ↔ ¬ ∃ i, lo ≤ i ∧ i < hi ∧ bitAt a.bitmap i = false := by
    simp
  constructor
  · intro h
    have hused : ∃ i, lo ≤ i ∧ i < hi ∧ bitAt a.bitmap i = false := by
      by_contra hall
      obtain ⟨a', hok, -⟩ := h.used (hset.mpr hall)
      rw [freeRange_eq hle hhi] at hok
      split at hok
      · cases hok
      · cases hok
    refine ⟨?_, hused⟩
    by_contra hnone
    have herr := h.unused fun hall => hset.mp hall hused
    rw [freeRange_eq hle hhi, if_pos (hclear.mpr hnone)] at herr
    cases herr
  · rintro ⟨hsome, hused⟩
    refine ⟨fun hall => absurd hused (hset.mp hall), fun _ => ?_⟩
    rw [freeRange_eq hle hhi, if_neg fun h => hclear.mp h hsome]

theorem free_eq_freeRange_iff (h : bit < a.bitmap.length * 8) :
    a.free bit = a.freeRange bit (bit + 1) ↔ bitAt a.bitmap bit = true := by
  have hclear : allEq a.bitmap false bit (bit + 1 - bit) = !bitAt a.bitmap bit := by
    rw [Nat.add_sub_cancel_left, allEq]
    simp
  rw [free_ok h, freeRange_eq (by omega) h, hclear]
  cases bitAt a.bitmap bit with
  | true => exact iff_of_true rfl rfl
  | false => exact iff_of_false (fun h => by cases h) Bool.false_ne_true

/-- **FREEING, EXACTLY.**  `free_range` does what it is for if and only if the
    range holds a set and a clear bit, and `free` agrees with it on the bits
    that are set: in both cases where `DoubleFree` is the answer. -/
theorem freeing_iff (a : BitmapAllocator) :
    (∀ lo hi, lo ≤ hi → hi ≤ a.bitmap.length * 8 →
      (FreesRange a lo hi
        ↔ (∃ i, lo ≤ i ∧ i < hi ∧ bitAt a.bitmap i = true)
          ∧ ∃ i, lo ≤ i ∧ i < hi ∧ bitAt a.bitmap i = false))
      ∧ ∀ bit, bit < a.bitmap.length * 8 →
        (a.free bit = a.freeRange bit (bit + 1) ↔ bitAt a.bitmap bit = true) :=
  ⟨fun _ _ hle hhi => freesRange_iff hle hhi, fun _ h => free_eq_freeRange_iff h⟩

theorem freeing_iff_sample :
    FreesRange (ofBytes [0x0F#8] 0 (by decide) (by decide)) 2 6
      ∧ (ofBytes [0x0F#8] 0 (by decide) (by decide)).free 1
        = (ofBytes [0x0F#8] 0 (by decide) (by decide)).freeRange 1 2 := by
  obtain ⟨hrange, hbit⟩ := freeing_iff (ofBytes [0x0F#8] 0 (by decide) (by decide))
  refine ⟨(hrange 2 6 (by decide) (by decide)).mpr ⟨⟨2, by decide⟩, ⟨4, by decide⟩⟩, ?_⟩
  exact (hbit 1 (by decide)).mpr (by decide)

/-- A range in use is refused as a double free, and a free one panics. -/
theorem free_range_is_inverted :
    (ofBytes [0x0F#8] 0 (by decide) (by decide)).freeRange 0 4
        = .ok (.error .doubleFree, ofBytes [0x0F#8] 0 (by decide) (by decide))
      ∧ (ofBytes [0x0F#8] 0 (by decide) (by decide)).freeRange 4 8 = .error .todo
      ∧ ¬ FreesRange (ofBytes [0x0F#8] 0 (by decide) (by decide)) 0 4
      ∧ ¬ FreesRange (ofBytes [0x0F#8] 0 (by decide) (by decide)) 4 8 := by
  have hused : (ofBytes [0x0F#8] 0 (by decide) (by decide)).freeRange 0 4
      = .ok (.error .doubleFree, ofBytes [0x0F#8] 0 (by decide) (by decide)) := by decide
  have hfree : (ofBytes [0x0F#8] 0 (by decide) (by decide)).freeRange 4 8 = .error .todo := by
    decide
  refine ⟨hused, hfree, fun h => ?_, fun h => ?_⟩
  · have hset : ∀ i < 4, bitAt [0x0F#8] i = true := by decide
    obtain ⟨a', hok, -⟩ := h.used fun i _ hi => hset i hi
    cases hused.symm.trans hok
  · have herr := h.unused fun hall => absurd (hall 4 (by decide) (by decide)) (by decide)
    cases hfree.symm.trans herr

end KermolBitmapBounds
