import Kermol.BitmapAllocatorProofs

/-! # What `alloc` hands out

    `scan` has two searches.  For up to sixteen bits it looks at every bit, and
    what `alloc` then sets is what was found clear.  Above sixteen bits it
    walks positions `start, start + 8, ..` and reads, at each, the byte with
    that very index: position and byte index differ by a factor of eight.  The
    bits set afterwards, `s .. s + bits`, are not the bits looked at.

    `alloc_clear_iff` says exactly when what is handed out was free, and
    `run_disjoint` what that gives for a run of requests. -/

namespace KermolBitmapScan

open RustEffect KermolFrameAllocator KermolBitmap ByteBits WindowScan

variable {a a' : BitmapAllocator} {bits s : Nat}

/-! ## `alloc` -/

/-- **`alloc`, INVERTED.**  The bits found by `scan` lie in the slice, are set
    afterwards, and no other bit changes. -/
theorem alloc_cases (hbits : 0 < bits) (h : a.alloc bits = .ok (.ok s, a')) :
    a.scan bits = .ok (.ok s) ∧ s + bits ≤ a.bitmap.length * 8
      ∧ a'.ptr = a.ptr ∧ a'.bitmap.length = a.bitmap.length
      ∧ a'.lastAllocated = s + bits
      ∧ ∀ i, bitAt a'.bitmap i = (bitAt a.bitmap i || decide (s ≤ i ∧ i < s + bits)) := by
  rw [BitmapAllocator.alloc] at h
  obtain ⟨found, hscan, h⟩ := bind_eq_ok.mp h
  cases found with
  | error e => cases h
  | ok t =>
      dsimp only at h
      split at h
      · next hfit =>
          obtain ⟨_, a₁, hflag, h⟩ := andThen_eq_ok h
          cases h
          have hbound := BitmapAllocator.flagRange_bound (by omega) hflag
          obtain ⟨a₂, heq, hshape, hbit⟩ := BitmapAllocator.flagRange_ok true
            (show s ≤ s + bits by omega) hbound
          cases heq.symm.trans hflag
          refine ⟨hscan, hbound, hshape.ptr, hshape.length, hshape.lastAllocated, ?_⟩
          intro i
          rw [hbit i, BitmapAllocator.flagged]
          show (if _ then true else bitAt a.bitmap i || _) = _
          by_cases hin : s ≤ i ∧ i < s + bits
          · simp [hin]
          · rw [if_neg (by omega), decide_eq_false hin, Bool.and_false]
      · cases h

/-- `alloc` returns what `scan` found when it lies in the slice. -/
theorem alloc_of_scan (hscan : a.scan bits = .ok (.ok s))
    (hbound : s + bits ≤ a.bitmap.length * 8) :
    ∃ a', a.alloc bits = .ok (.ok s, a') := by
  have hfit : s + bits < 2 ^ 64 := by
    have := a.bounded
    omega
  obtain ⟨a', heq, -, -⟩ := BitmapAllocator.flagRange_ok true
    (a := a.setLastAllocated (s + bits) hfit) (show s ≤ s + bits by omega) hbound
  refine ⟨a', ?_⟩
  rw [BitmapAllocator.alloc, hscan, ok_bind]
  dsimp only
  rw [dif_pos hfit, heq, andThen_ok]

/-! ## Up to sixteen bits -/

/-- The cell that `scan_bits` reads at a position. -/
theorem bitUsed_eq (a : BitmapAllocator) {current : Nat} (h : 0 < a.bitmap.length) :
    a.bitUsed current = .ok (bitAt a.bitmap (current % (a.bitmap.length * 8))) := by
  have hn : a.size / 8 = a.bitmap.length := by
    rw [a.size_eq, Nat.mul_div_cancel _ (by omega)]
  have hdiv : current % (a.bitmap.length * 8) / 8 = current / 8 % a.bitmap.length := by
    rw [Nat.mul_comm, Nat.mod_mul_right_div_self]
  have hmod : current % (a.bitmap.length * 8) % 8 = current % 8 :=
    Nat.mod_mul_left_mod current a.bitmap.length 8
  rw [BitmapAllocator.bitUsed, hn, BitmapAllocator.byteAt_ok (Nat.mod_lt _ h), ok_bind,
    and_shift_ne_zero _ (Nat.mod_lt _ (by omega)), bitAt, hdiv, hmod]
  rfl

/-- `align_up(bits, 8)` of a request for the bit search. -/
def byteTarget (bits : Nat) : Nat := (bits + 7) / 8 * 8

theorem alignUp_byteTarget (hbits : bits ≤ 16) : alignUp bits 8 = .ok (byteTarget bits) := by
  rw [alignUp, byteTarget]
  split
  · congr 1
    omega
  · rw [if_pos (by omega)]
    congr 1
    omega

/-- A request that returns `Ok` asks for less than the bitmap has. -/
theorem scan_lt_size (h : a.scan bits = .ok (.ok s)) : bits < a.size := by
  by_contra hge
  rw [BitmapAllocator.scan, if_pos (by omega)] at h
  cases h

theorem scan_small (hbits : bits ≤ 16) (hsize : bits < a.size) :
    a.scan bits = a.scanBits (byteTarget bits) := by
  rw [BitmapAllocator.scan, if_neg (by omega), if_neg (by omega),
    alignUp_byteTarget hbits, ok_bind]

theorem le_byteTarget (hbits : bits ≤ 16) :
    bits ≤ byteTarget bits ∧ byteTarget bits ≤ 16 := by
  rw [byteTarget]
  omega

/-- **THE BIT SEARCH IS RIGHT.**  What is handed out was clear. -/
theorem alloc_clear_small (hpos : 0 < bits) (hbits : bits ≤ 16)
    (h : a.alloc bits = .ok (.ok s, a')) :
    ∀ i, s ≤ i → i < s + bits → bitAt a.bitmap i = false := by
  obtain ⟨hscan, hbound, -⟩ := alloc_cases hpos h
  have hsize := a.size_eq
  have hn : 0 < a.bitmap.length := by omega
  rw [scan_small hbits (scan_lt_size hscan), BitmapAllocator.scanBits] at hscan
  obtain ⟨hle, h16⟩ := le_byteTarget hbits
  obtain ⟨m, -, -, hfound⟩ := scan_sound (by omega) (by omega) hscan
  have hclear : Clear a.bitUsed 1 (a.size * 8) s bits := by
    rcases hfound with hfull | ⟨k, -, hk, -, hend⟩
    · exact hfull.mono hle
    · -- a window cut short lies at the far end, where `flag_range` panics
      omega
  intro i hlo hhi
  have hcell := (hclear (i - s) (by omega)).2
  rw [Nat.mul_one, Nat.add_sub_cancel' hlo, bitUsed_eq a hn,
    Nat.mod_eq_of_lt (by omega)] at hcell
  exact Except.ok.inj hcell

/-! ## More than sixteen bits -/

/-- What `scan_bytes` looks for: a multiple `s` of eight, from the search
    position on, such that the `bits` bytes `s, s + 8, s + 16, ..` of the slice
    are all zero. -/
structure Sampled (a : BitmapAllocator) (bits s : Nat) : Prop where
  aligned : s % 8 = 0
  start : a.lastAllocated ≤ s
  fits : s + 8 * (bits - 1) < a.bitmap.length
  zero : ∀ k < bits, a.bitmap.getD (s + 8 * k) 0#8 = 0#8

/-- A cell reads as unused exactly at a zero byte of the slice. -/
theorem byteUsed_eq_false {current : Nat} (h : current < a.size) :
    a.byteUsed current = .ok false
      ↔ current < a.bitmap.length ∧ a.bitmap.getD current 0#8 = 0#8 := by
  rw [BitmapAllocator.byteUsed, Nat.mod_eq_of_lt h, BitmapAllocator.byteAt]
  by_cases hlt : current < a.bitmap.length
  · rw [if_pos hlt, ok_bind, pure_eq_ok, Except.ok.injEq]
    simp [hlt]
  · rw [if_neg hlt]
    exact ⟨fun h => (by cases h), fun h => absurd h.1 hlt⟩

theorem clear_byteUsed_iff (hpos : 0 < bits) :
    Clear a.byteUsed 8 a.size s bits
      ↔ s + 8 * (bits - 1) < a.bitmap.length
        ∧ ∀ k < bits, a.bitmap.getD (s + 8 * k) 0#8 = 0#8 := by
  have hsize := a.size_eq
  constructor
  · intro h
    have hcell : ∀ k < bits, s + 8 * k < a.bitmap.length
        ∧ a.bitmap.getD (s + 8 * k) 0#8 = 0#8 := by
      intro k hk
      obtain ⟨hlt, hused⟩ := h k hk
      rw [Nat.mul_comm k 8] at hlt hused
      exact (byteUsed_eq_false hlt).mp hused
    exact ⟨(hcell (bits - 1) (by omega)).1, fun k hk => (hcell k hk).2⟩
  · rintro ⟨hfits, hzero⟩ k hk
    rw [Nat.mul_comm k 8]
    have hlt : s + 8 * k < a.bitmap.length := by omega
    exact ⟨by omega, (byteUsed_eq_false (by omega)).mpr ⟨hlt, hzero k hk⟩⟩

theorem alignUp_eight {x y : Nat} (h : alignUp x 8 = .ok y) :
    x ≤ y ∧ y < x + 8 ∧ y % 8 = 0 := by
  rw [alignUp] at h
  split at h
  · cases h
    omega
  · split at h
    · cases h
      omega
    · cases h

theorem alignUp_total {x t : Nat} (hle : x ≤ t) (ht : t % 8 = 0) (hlt : t < 2 ^ 64) :
    ∃ y, alignUp x 8 = .ok y := by
  rw [alignUp]
  split
  · exact ⟨_, rfl⟩
  · rw [if_pos (by omega)]
    exact ⟨_, rfl⟩

theorem scan_big (hbits : 16 < bits) (hsize : bits < a.size) :
    a.scan bits = a.scanBytes bits := by
  rw [BitmapAllocator.scan, if_neg (by omega), if_pos hbits]

/-- The byte search finds the first sampled position, if anything. -/
theorem scanBytes_sound (hbits : 16 < bits) (hlt : bits < a.size)
    (h : a.scanBytes bits = .ok (.ok s)) :
    Sampled a bits s ∧ ∀ t < s, ¬ Sampled a bits t := by
  have hsize := a.size_eq
  rw [BitmapAllocator.scanBytes] at h
  obtain ⟨start, hstart, h⟩ := bind_eq_ok.mp h
  obtain ⟨hle, hlt8, hal⟩ := alignUp_eight hstart
  obtain ⟨m, hs, hmin, hfound⟩ := scan_sound (by omega) (by omega) h
  have hclear : Clear a.byteUsed 8 a.size s bits := by
    rcases hfound with hfull | ⟨k, hk, -, hpart, hend⟩
    · exact hfull
    · -- the search would have to step over the bytes past the slice
      have hlast := ((clear_byteUsed_iff hk).mp hpart).1
      omega
  obtain ⟨hfits, hzero⟩ := (clear_byteUsed_iff (by omega)).mp hclear
  refine ⟨⟨by omega, by omega, hfits, hzero⟩, ?_⟩
  intro t ht hsample
  have htal := hsample.aligned
  have htstart := hsample.start
  have hnot := hmin ((t - start) / 8) (by omega)
  rw [show start + (t - start) / 8 * 8 = t by omega] at hnot
  exact hnot ((clear_byteUsed_iff (by omega)).mpr ⟨hsample.fits, hsample.zero⟩)

/-- The first sampled position is found. -/
theorem scanBytes_complete (hbits : 16 < bits) (hsample : Sampled a bits s)
    (hfirst : ∀ t < s, ¬ Sampled a bits t) : a.scanBytes bits = .ok (.ok s) := by
  have hsize := a.size_eq
  have hbounded := a.bounded
  have hal := hsample.aligned
  have hst := hsample.start
  have hfits := hsample.fits
  obtain ⟨start, hstart⟩ := alignUp_total hst hal (by omega)
  obtain ⟨hle, hlt8, hsal⟩ := alignUp_eight hstart
  have hpos : start + (s - start) / 8 * 8 = s := by omega
  rw [BitmapAllocator.scanBytes, hstart, ok_bind,
    scan_complete (by omega) (by omega) ((s - start) / 8) (by omega), hpos]
  · intro m hm
    have hread : start + m * 8 < a.bitmap.length := by omega
    rw [BitmapAllocator.byteUsed, Nat.mod_eq_of_lt (by omega),
      BitmapAllocator.byteAt_ok hread]
    exact ⟨_, rfl⟩
  · intro m hm hclear
    obtain ⟨hf, hz⟩ := (clear_byteUsed_iff (by omega)).mp hclear
    exact hfirst (start + m * 8) (by omega) ⟨by omega, by omega, hf, hz⟩
  · rw [hpos]
    exact (clear_byteUsed_iff (by omega)).mpr ⟨hfits, hsample.zero⟩

/-! ## When what is handed out was free -/

/-- Every bit that the call hands out was clear before it. -/
def HandsOutClear (a : BitmapAllocator) (bits : Nat) : Prop :=
  ∀ s a', a.alloc bits = .ok (.ok s, a') →
    ∀ i, s ≤ i → i < s + bits → bitAt a.bitmap i = false

/-- At the first sampled position, if there is one, the bits `s .. s + bits`
    are clear. -/
def FirstSampleClear (a : BitmapAllocator) (bits : Nat) : Prop :=
  ∀ s, Sampled a bits s → (∀ t < s, ¬ Sampled a bits t) →
    ∀ i, s ≤ i → i < s + bits → bitAt a.bitmap i = false

/-- The condition on the allocator and the request. -/
def Safe (a : BitmapAllocator) (bits : Nat) : Prop :=
  bits ≤ 16 ∨ FirstSampleClear a bits

/-- **ONE CALL.** -/
theorem handsOutClear_iff (hpos : 0 < bits) : HandsOutClear a bits ↔ Safe a bits := by
  constructor
  · intro h
    by_cases hsmall : bits ≤ 16
    · exact Or.inl hsmall
    · right
      intro s hsample hfirst
      have hsize := a.size_eq
      have hfits := hsample.fits
      have hscan : a.scan bits = .ok (.ok s) := by
        rw [scan_big (by omega) (by omega)]
        exact scanBytes_complete (by omega) hsample hfirst
      obtain ⟨a', halloc⟩ := alloc_of_scan hscan (by omega)
      exact h s a' halloc
  · rintro hsafe s a' halloc
    rcases hsafe with hsmall | hfirst
    · exact alloc_clear_small hpos hsmall halloc
    · by_cases hsmall : bits ≤ 16
      · exact alloc_clear_small hpos hsmall halloc
      · obtain ⟨hscan, hbound, -⟩ := alloc_cases hpos halloc
        have hlt := scan_lt_size hscan
        rw [scan_big (by omega) hlt] at hscan
        obtain ⟨hsample, hmin⟩ := scanBytes_sound (by omega) hlt hscan
        exact hfirst s hsample hmin

/-! ## Runs of requests -/

/-- A call that fails changed nothing, or its position lies behind the checked
    bound; then only the search position has moved. -/
theorem alloc_err_cases {e : MemoryError} (h : a.alloc bits = .ok (.error e, a')) :
    a' = a ∨ (e = .outOfBounds ∧ a'.bitmap = a.bitmap
      ∧ ∃ s, a.scan bits = .ok (.ok s) ∧ a.bitmap.length * 64 < s + bits) := by
  rw [BitmapAllocator.alloc] at h
  obtain ⟨found, hscan, h⟩ := bind_eq_ok.mp h
  cases found with
  | error e =>
      cases h
      exact Or.inl rfl
  | ok s =>
      dsimp only at h
      split at h
      · rcases andThen_cases h with ⟨e', hflag, he⟩ | ⟨_, a₁, -, h⟩
        · obtain ⟨hfar, rfl, rfl⟩ := BitmapAllocator.flagRange_refused hflag
          cases he
          exact Or.inr ⟨rfl, rfl, s, hscan, hfar⟩
        · cases h
      · cases h

/-- A call that fails leaves the bitmap. -/
theorem alloc_err {e : MemoryError} (h : a.alloc bits = .ok (.error e, a')) :
    a'.bitmap = a.bitmap := by
  rcases alloc_err_cases h with rfl | ⟨-, hbitmap, -⟩
  · rfl
  · exact hbitmap

/-- A request for no bits returns the search position and changes nothing. -/
theorem alloc_zero (h : a.alloc 0 = .ok (.ok s, a')) :
    s = a.lastAllocated ∧ a'.bitmap = a.bitmap := by
  rw [BitmapAllocator.alloc] at h
  obtain ⟨found, hscan, h⟩ := bind_eq_ok.mp h
  cases found with
  | error e => cases h
  | ok t =>
      dsimp only at h
      split at h
      · obtain ⟨_, a₁, hflag, h⟩ := andThen_eq_ok h
        cases h
        rw [BitmapAllocator.flagRange_self hflag]
        refine ⟨?_, rfl⟩
        rw [scan_small (by omega) (scan_lt_size hscan), BitmapAllocator.scanBits] at hscan
        obtain ⟨m, hs, hmin, -⟩ := scan_sound (by omega) (by omega) hscan
        -- the empty window is found at once
        have hm : m = 0 := by
          by_contra hne
          exact hmin 0 (by omega) (clear_zero _)
        omega
      · cases h

/-- The ranges handed out by a run of requests, as start and length. -/
def allocRun : List Nat → BitmapAllocator → Panics (List (Nat × Nat) × BitmapAllocator)
  | [], a => return ([], a)
  | bits :: requests, a => do
      let (r, a₁) ← a.alloc bits
      let (granted, a') ← allocRun requests a₁
      match r with
      | .error _ => return (granted, a')
      | .ok s => return ((s, bits) :: granted, a')

/-- Every call of the run meets the condition in the state it starts from. -/
def RunSafe : List Nat → BitmapAllocator → Prop
  | [], _ => True
  | bits :: requests, a =>
      Safe a bits ∧ ∀ r a', a.alloc bits = .ok (r, a') → RunSafe requests a'

/-- Two ranges have no bit in common. -/
def Apart (p q : Nat × Nat) : Prop := p.1 + p.2 ≤ q.1 ∨ q.1 + q.2 ≤ p.1

/-- **RUN.**  In a run whose calls all meet the condition, no bit that was set
    at the start and no bit handed out before is handed out. -/
theorem run_disjoint {requests : List Nat} :
    ∀ {a a' : BitmapAllocator} {granted : List (Nat × Nat)},
      (∀ bits ∈ requests, 0 < bits) → RunSafe requests a →
      allocRun requests a = .ok (granted, a') →
      granted.Pairwise Apart ∧ ∀ p ∈ granted, 0 < p.2
        ∧ ∀ i, p.1 ≤ i → i < p.1 + p.2 → bitAt a.bitmap i = false := by
  induction requests with
  | nil =>
      intro a a' granted _ _ h
      cases h
      exact ⟨List.Pairwise.nil, nofun⟩
  | cons bits requests ih =>
      rintro a a' granted hpos ⟨hsafe, hrest⟩ h
      rw [allocRun] at h
      obtain ⟨⟨r, a₁⟩, halloc, h⟩ := bind_eq_ok.mp h
      obtain ⟨⟨granted₁, a₂⟩, hrun, h⟩ := bind_eq_ok.mp h
      have hbits : 0 < bits := hpos bits List.mem_cons_self
      obtain ⟨hpair, hclear⟩ := ih (fun b hb => hpos b (List.mem_cons_of_mem bits hb))
        (hrest r a₁ halloc) hrun
      cases r with
      | error e =>
          cases h
          rw [alloc_err halloc] at hclear
          exact ⟨hpair, hclear⟩
      | ok s =>
          cases h
          obtain ⟨-, -, -, -, -, hbit⟩ := alloc_cases hbits halloc
          have hnow := (handsOutClear_iff hbits).mpr hsafe s a₁ halloc
          -- what a later call found clear was clear before, and outside this range
          have hlater : ∀ p ∈ granted₁, 0 < p.2
              ∧ ∀ i, p.1 ≤ i → i < p.1 + p.2 →
                bitAt a.bitmap i = false ∧ ¬ (s ≤ i ∧ i < s + bits) := by
            intro p hp
            refine ⟨(hclear p hp).1, fun i hlo hhi => ?_⟩
            have hi := (hclear p hp).2 i hlo hhi
            rw [hbit i, Bool.or_eq_false_iff] at hi
            exact ⟨hi.1, of_decide_eq_false hi.2⟩
          refine ⟨List.pairwise_cons.mpr ⟨?_, hpair⟩, ?_⟩
          · intro p hp
            obtain ⟨hlen, hout⟩ := hlater p hp
            by_contra hmeet
            rw [Apart] at hmeet
            push Not at hmeet
            dsimp only at hmeet
            have := (hout (max s p.1) (by omega) (by omega)).2
            omega
          · intro p hp
            rcases List.mem_cons.mp hp with rfl | hp
            · exact ⟨hbits, hnow⟩
            · exact ⟨(hlater p hp).1, fun i hlo hhi => ((hlater p hp).2 i hlo hhi).1⟩

/-- **NO DOUBLE ALLOCATION, EXACTLY.**  A call hands out only clear bits if and
    only if it asks for at most sixteen bits or the first sampled position is
    really free; and a run of such calls never hands out a bit twice. -/
theorem alloc_clear_iff (a : BitmapAllocator) :
    (∀ bits, 1 ≤ bits → (HandsOutClear a bits ↔ bits ≤ 16 ∨ FirstSampleClear a bits))
      ∧ ∀ (a' : BitmapAllocator) (requests : List Nat) (granted : List (Nat × Nat)),
        (∀ bits ∈ requests, 1 ≤ bits) → RunSafe requests a →
        allocRun requests a = .ok (granted, a') →
        granted.Pairwise Apart
          ∧ ∀ p ∈ granted, ∀ i, p.1 ≤ i → i < p.1 + p.2 → bitAt a.bitmap i = false := by
  refine ⟨fun bits hbits => handsOutClear_iff hbits, ?_⟩
  intro a' requests granted hpos hsafe hrun
  obtain ⟨hpair, hclear⟩ := run_disjoint hpos hsafe hrun
  exact ⟨hpair, fun p hp => (hclear p hp).2⟩

/-- A slice of 136 bytes in which only byte 1, the bits 8 to 15, is in use. -/
def sampleBitmap : BitmapAllocator where
  ptr := samplePtr
  bitmap := 0#8 :: 0xFF#8 :: List.replicate 134 0#8
  size := 1088
  lastAllocated := 0
  size_eq := by simp
  bounded := by simp
  cursor := cursor_zero

/-- The same slice with every bit free. -/
def freeBitmap : BitmapAllocator where
  ptr := samplePtr
  bitmap := List.replicate 136 0#8
  size := 1088
  lastAllocated := 0
  size_eq := by simp
  bounded := by simp
  cursor := cursor_zero

theorem freeBitmap_clear (bits : Nat) : FirstSampleClear freeBitmap bits := by
  intro s _ _ i _ _
  exact bitAt_replicate 136 i

theorem alloc_clear_iff_sample :
    HandsOutClear sampleBitmap 16 ∧ ¬ HandsOutClear sampleBitmap 17
      ∧ HandsOutClear freeBitmap 17
      ∧ ∃ granted a', allocRun [17, 9] freeBitmap = .ok (granted, a')
        ∧ granted.Pairwise Apart := by
  obtain ⟨hone, -⟩ := alloc_clear_iff sampleBitmap
  obtain ⟨hfree, hrun⟩ := alloc_clear_iff freeBitmap
  have hclear := freeBitmap_clear 17
  refine ⟨(hone 16 (by decide)).mpr (Or.inl (by decide)), fun hhands => ?_,
    (hfree 17 (by decide)).mpr (Or.inr hclear), ?_⟩
  · -- the bytes 0, 8, .. are free, and byte 1 is not looked at
    rcases (hone 17 (by decide)).mp hhands with hle | hfirst
    · omega
    · have hbit := hfirst 0 ⟨rfl, Nat.le_refl _, by simp [sampleBitmap], by decide +kernel⟩ nofun 8 (by decide)
        (by decide)
      revert hbit
      decide
  · have hok : (allocRun [17, 9] freeBitmap).toOption.isSome = true := by decide +kernel
    cases h : allocRun [17, 9] freeBitmap with
    | error p =>
        rw [h] at hok
        cases hok
    | ok out =>
        obtain ⟨granted, a'⟩ := out
        exact ⟨granted, a', rfl, (hrun a' [17, 9] granted (by decide)
          ⟨Or.inr hclear, fun _ _ _ => ⟨Or.inl (by decide), fun _ _ _ => trivial⟩⟩ h).1⟩

theorem alloc_hands_out_used_bit :
    (∃ a', sampleBitmap.alloc 17 = .ok (.ok 0, a'))
      ∧ bitAt sampleBitmap.bitmap 8 = true := by
  have hscan : sampleBitmap.scan 17 = .ok (.ok 0) := by decide +kernel
  exact ⟨alloc_of_scan hscan (by simp [sampleBitmap]), by decide⟩

end KermolBitmapScan
