import Mathlib.Data.List.GetD

/-! # Bits of a byte list

    Bit `i` of a list of bytes is bit `i % 8` of byte `i / 8`, least
    significant first; past the end every bit reads as clear.  Setting one bit
    by OR and filling a run of bytes are the two writes, each with the lemma
    that says what every bit reads afterwards.  `allEq` tests a run of bits,
    and whole bytes of the run can be tested at once (`slice_all_eq`). -/

namespace ByteBits

/-- A byte. -/
abbrev Byte := BitVec 8

/-- Bit `i` of a list of bytes. -/
def bitAt (bytes : List Byte) (i : Nat) : Bool :=
  (bytes.getD (i / 8) 0#8).getLsbD (i % 8)

/-- A boolean as the byte `flag as u8`. -/
def ofFlag (flag : Bool) : Byte := if flag then 1#8 else 0#8

/-- `bytes[i / 8] |= (flag as u8) << (i % 8)`: OR-ing with a clear flag writes
    the byte back unchanged. -/
def orBit (bytes : List Byte) (i : Nat) (flag : Bool) : List Byte :=
  bytes.set (i / 8) (bytes.getD (i / 8) 0#8 ||| ofFlag flag <<< (i % 8))

/-- `bytes[lo..hi].fill(v)` -/
def fill (bytes : List Byte) (lo hi : Nat) (v : Byte) : List Byte :=
  bytes.mapIdx fun k b => if lo ≤ k ∧ k < hi then v else b

@[simp] theorem length_orBit (bytes : List Byte) (i : Nat) (flag : Bool) :
    (orBit bytes i flag).length = bytes.length := by
  simp [orBit]

@[simp] theorem length_fill (bytes : List Byte) (lo hi : Nat) (v : Byte) :
    (fill bytes lo hi v).length = bytes.length := by
  simp [fill]

theorem bitAt_of_lt {bytes : List Byte} {i : Nat} (h : i / 8 < bytes.length) :
    bitAt bytes i = (bytes[i / 8]).getLsbD (i % 8) := by
  rw [bitAt, List.getD_eq_getElem _ _ h]

theorem bitAt_of_ge {bytes : List Byte} {i : Nat} (h : bytes.length * 8 ≤ i) :
    bitAt bytes i = false := by
  have hlen : bytes.length ≤ i / 8 := by omega
  rw [bitAt, List.getD_eq_default _ _ hlen]
  simp

theorem bitAt_replicate (n i : Nat) : bitAt (List.replicate n 0#8) i = false := by
  by_cases hi : i / 8 < n
  · rw [bitAt_of_lt (by rwa [List.length_replicate]), List.getElem_replicate]
    exact BitVec.getLsbD_zero
  · exact bitAt_of_ge (by rw [List.length_replicate]; omega)

theorem getLsbD_ofFlag_shift (flag : Bool) (k j : Nat) (hk : k < 8)
    (hj : j < 8) :
    (ofFlag flag <<< k).getLsbD j = (flag && decide (j = k)) := by
  cases flag with
  | false => simp [ofFlag]
  | true =>
      rw [ofFlag, if_pos rfl, BitVec.getLsbD_shiftLeft]
      by_cases hjk : j = k
      · subst hjk
        simp [hj]
      · rcases Nat.lt_or_gt_of_ne hjk with hlt | hgt
        · simp [hlt, hjk]
        · have h1 : (1#8).getLsbD (j - k) = false := by
            rw [BitVec.getLsbD_one]
            simp
            omega
          simp [h1, hjk]

/-- `byte & (1 << k) != 0` reads bit `k`. -/
theorem and_shift_ne_zero (b : Byte) {k : Nat} (hk : k < 8) :
    ((b &&& 1#8 <<< k) != 0#8) = b.getLsbD k := by
  have htwo : 1#8 <<< k = BitVec.twoPow 8 k := (BitVec.twoPow_eq 8 k).symm
  rw [htwo, BitVec.and_twoPow]
  cases hb : b.getLsbD k with
  | true =>
      have hne : BitVec.twoPow 8 k ≠ 0#8 := by
        intro h
        have hbit := congrArg (·.getLsbD k) h
        simp [hk] at hbit
      simp [hne]
  | false => simp

/-- **ONE BIT.**  OR-ing a flag into bit `i` sets that bit when the flag is set
    and touches no other. -/
theorem bitAt_orBit {bytes : List Byte} {i : Nat} (flag : Bool)
    (hi : i < bytes.length * 8) (j : Nat) :
    bitAt (orBit bytes i flag) j = (bitAt bytes j || (flag && decide (j = i))) := by
  have hib : i / 8 < bytes.length := by omega
  by_cases hbyte : j / 8 = i / 8
  · have hget : (orBit bytes i flag).getD (j / 8) 0#8
        = bytes.getD (j / 8) 0#8 ||| ofFlag flag <<< (i % 8) := by
      rw [hbyte, orBit, List.getD_eq_getElem _ _ (by simpa using hib),
        List.getElem_set_self]
    rw [bitAt, hget, BitVec.getLsbD_or,
      getLsbD_ofFlag_shift flag _ _ (Nat.mod_lt _ (by omega))
        (Nat.mod_lt _ (by omega))]
    have hbit : decide (j % 8 = i % 8) = decide (j = i) :=
      decide_eq_decide.mpr (by omega)
    rw [hbit]
    rfl
  · have hji : j ≠ i := by
      rintro rfl
      exact hbyte rfl
    have hsame : bitAt (orBit bytes i flag) j = bitAt bytes j := by
      rw [bitAt, bitAt, orBit, List.getD_eq_getElem?_getD,
        List.getElem?_set_ne (fun h => hbyte h.symm),
        ← List.getD_eq_getElem?_getD]
    rw [hsame, decide_eq_false hji]
    simp

/-- **A RUN OF BYTES.**  Filling bytes `lo..hi` writes the bits of those bytes
    and no other. -/
theorem bitAt_fill {bytes : List Byte} {lo hi : Nat} (v : Byte)
    (hhi : hi ≤ bytes.length) (j : Nat) :
    bitAt (fill bytes lo hi v) j
      = if lo * 8 ≤ j ∧ j < hi * 8 then v.getLsbD (j % 8) else bitAt bytes j := by
  by_cases hj : j / 8 < bytes.length
  · rw [bitAt_of_lt (by simpa using hj), bitAt_of_lt hj]
    simp only [fill, List.getElem_mapIdx]
    by_cases hin : lo ≤ j / 8 ∧ j / 8 < hi
    · rw [if_pos hin, if_pos (by omega)]
    · rw [if_neg hin, if_neg (by omega)]
  · rw [bitAt_of_ge (by simp; omega), bitAt_of_ge (by omega),
      if_neg (by omega)]

/-! ## Testing a run of bits -/

/-- `k` bits from `lo` on all read as `set`. -/
def allEq (bytes : List Byte) (set : Bool) (lo k : Nat) : Bool :=
  (List.range' lo k).all fun i => set == bitAt bytes i

theorem allEq_iff {bytes : List Byte} {set : Bool} {lo k : Nat} :
    allEq bytes set lo k = true ↔ ∀ i, lo ≤ i → i < lo + k → bitAt bytes i = set := by
  rw [allEq, List.all_eq_true]
  constructor
  · intro h i hlo hhi
    have hi := h i (List.mem_range'_1.mpr ⟨hlo, hhi⟩)
    exact (eq_of_beq hi).symm
  · intro h i hi
    obtain ⟨hlo, hhi⟩ := List.mem_range'_1.mp hi
    rw [h i hlo hhi]
    simp

/-- Whole bytes are tested by comparing with `0xFF` or `0`. -/
theorem slice_all_eq {bytes : List Byte} (set : Bool) {lo hi : Nat}
    (hle : lo ≤ hi) (hhi : hi ≤ bytes.length) :
    ((bytes.drop lo).take (hi - lo)).all (· == if set then 0xFF#8 else 0#8)
      = allEq bytes set (lo * 8) (hi * 8 - lo * 8) := by
  have hbyte : ∀ b : Byte, (b == if set then 0xFF#8 else 0#8) = true
      ↔ ∀ j, j < 8 → b.getLsbD j = set := by
    intro b
    rw [beq_iff_eq]
    constructor
    · rintro rfl j hj
      revert j
      cases set <;> decide
    · intro h
      apply BitVec.eq_of_getLsbD_eq
      intro j hj
      rw [h j hj]
      revert j
      cases set <;> decide
  rw [Bool.eq_iff_iff, allEq_iff, List.all_eq_true]
  constructor
  -- bit `i` is bit `i % 8` of byte `i / 8`, which is in the slice
  · intro h i hlo hi'
    have hi8 : i / 8 < bytes.length := by omega
    have hmem : bytes[i / 8] ∈ (bytes.drop lo).take (hi - lo) := by
      rw [List.mem_take_iff_getElem]
      refine ⟨i / 8 - lo, by simp; omega, ?_⟩
      simp [List.getElem_drop, Nat.add_sub_cancel' (show lo ≤ i / 8 by omega)]
    rw [bitAt_of_lt hi8]
    exact (hbyte _).mp (h _ hmem) _ (Nat.mod_lt _ (by omega))
  -- bit `j` of the slice's byte `k` is bit `(lo + k) * 8 + j`
  · intro h b hb
    obtain ⟨k, hk, rfl⟩ := List.mem_take_iff_getElem.mp hb
    rw [List.length_drop] at hk
    rw [hbyte]
    intro j hj
    have hbit := h ((lo + k) * 8 + j) (by omega) (by omega)
    have hdiv : ((lo + k) * 8 + j) / 8 = lo + k := by omega
    have hmod : ((lo + k) * 8 + j) % 8 = j := by omega
    rw [bitAt, hdiv, hmod, List.getD_eq_getElem _ _ (by omega)] at hbit
    rw [List.getElem_drop]
    exact hbit

/-- A run of bits cut in two. -/
theorem allEq_append (bytes : List Byte) (set : Bool) {lo mid hi : Nat}
    (h₁ : lo ≤ mid) (h₂ : mid ≤ hi) :
    (allEq bytes set lo (mid - lo) && allEq bytes set mid (hi - mid))
      = allEq bytes set lo (hi - lo) := by
  rw [Bool.eq_iff_iff, Bool.and_eq_true, allEq_iff, allEq_iff, allEq_iff]
  constructor
  · rintro ⟨ha, hb⟩ i hlo hhi
    by_cases hi' : i < mid
    · exact ha i hlo (by omega)
    · exact hb i (by omega) (by omega)
  · intro h
    exact ⟨fun i hlo hhi => h i hlo (by omega), fun i hlo hhi => h i (by omega) (by omega)⟩

end ByteBits
