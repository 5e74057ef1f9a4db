import Kermol.BitmapScanProofs
import Kermol.BitmapBoundsProofs

/-! # Room, and failed allocations

    What `alloc` does is decided by where its search ends.  Inside the slice the
    bits are set and returned (`alloc_exact`).  Between the slice and the bound
    it checks, eight times as far, `flag_range` panics; behind that bound it is
    refused, with the search position already moved.

    The bit search runs around the slice and returns positions it has not
    reduced; at the far end it returns whatever is left.  The byte search reads
    bytes at bit positions.  `alloc_serves_iff` says for which states and
    requests a call returns and finds room where there is some, and
    `alloc_failure_kept_iff` for which a failed call leaves everything as it
    was. -/

namespace KermolBitmapRoom

open RustEffect KermolFrameAllocator KermolBitmap BitmapAllocator KermolBitmapScan
open KermolBitmapBounds ByteBits WindowScan

variable {a a' : BitmapAllocator} {bits s k : Nat}

/-! ## What becomes of a position -/

theorem flagRange_panics {lo hi : Nat} (f : Bool) (hlt : lo < hi)
    (h₁ : a.bitmap.length * 8 < hi) (h₂ : hi ≤ a.bitmap.length * 64) :
    ∃ p, a.flagRange lo hi f = .error p := by
  match hx : a.flagRange lo hi f with
  | .error p => exact ⟨p, rfl⟩
  | .ok (.ok (), a') =>
      have hin := flagRange_bound hlt hx
      omega
  | .ok (.error e, a') =>
      have hout := (flagRange_refused hx).1
      omega

/-- A position between the slice and the checked bound panics. -/
theorem alloc_between (hpos : 0 < bits) (hscan : a.scan bits = .ok (.ok s))
    (h₁ : a.bitmap.length * 8 < s + bits) (h₂ : s + bits ≤ a.bitmap.length * 64) :
    ∃ p, a.alloc bits = .error p := by
  have hfit : s + bits < 2 ^ 64 := by
    have := a.bounded
    omega
  obtain ⟨p, hp⟩ := flagRange_panics (a := a.setLastAllocated (s + bits) hfit) true
    (show s < s + bits by omega) h₁ h₂
  refine ⟨p, ?_⟩
  rw [BitmapAllocator.alloc, hscan, ok_bind]
  dsimp only
  rw [dif_pos hfit, hp]
  rfl

/-- A position behind the checked bound is refused, and the next search starts
    there. -/
theorem alloc_far (hscan : a.scan bits = .ok (.ok s)) (hfit : s + bits < 2 ^ 64)
    (h : a.bitmap.length * 64 < s + bits) :
    a.alloc bits = .ok (.error .outOfBounds, a.setLastAllocated (s + bits) hfit) := by
  have hbounds : ¬ (a.setLastAllocated (s + bits) hfit).rangeInBounds (s + bits) = true := by
    rw [rangeInBounds_iff]
    exact Nat.not_le.mpr h
  rw [BitmapAllocator.alloc, hscan, ok_bind]
  dsimp only
  rw [dif_pos hfit, flagRange, if_neg hbounds, andThen_err]

/-- A search that gives up leaves the allocator. -/
theorem alloc_of_scan_err {e : MemoryError} (hscan : a.scan bits = .ok (.error e)) :
    a.alloc bits = .ok (.error e, a) := by
  rw [BitmapAllocator.alloc, hscan, ok_bind]
  rfl

/-- **A SUCCESSFUL CALL, EXACTLY.** -/
theorem alloc_exact (a a' : BitmapAllocator) (bits s : Nat) (hbits : 1 ≤ bits)
    (h : a.alloc bits = .ok (.ok s, a')) :
    s + bits ≤ 8 * a.bitmap.length ∧ a'.bitmap.length = a.bitmap.length
      ∧ (∀ i, s ≤ i → i < s + bits → bitAt a'.bitmap i = true)
      ∧ (∀ i, ¬ (s ≤ i ∧ i < s + bits) → bitAt a'.bitmap i = bitAt a.bitmap i)
      ∧ a'.lastAllocated = s + bits := by
  obtain ⟨-, hbound, -, hlength, hlast, hbit⟩ := alloc_cases hbits h
  refine ⟨by omega, hlength, fun i hlo hhi => ?_, fun i hout => ?_, hlast⟩
  · rw [hbit i, decide_eq_true ⟨hlo, hhi⟩, Bool.or_true]
  · rw [hbit i, decide_eq_false hout, Bool.or_false]

theorem alloc_exact_sample :
    ∃ a', sampleBitmap.alloc 5 = .ok (.ok 0, a') ∧ a'.lastAllocated = 5
      ∧ ∀ i, 0 ≤ i → i < 5 → bitAt a'.bitmap i = true := by
  have hscan : sampleBitmap.scan 5 = .ok (.ok 0) := by decide +kernel
  obtain ⟨a', halloc⟩ := alloc_of_scan hscan (by simp [sampleBitmap])
  obtain ⟨-, -, hset, -, hlast⟩ :=
    alloc_exact sampleBitmap a' 5 0 (by decide) halloc
  exact ⟨a', halloc, hlast, fun i hlo hhi => hset i hlo (by omega)⟩

/-! ## The bit search -/

/-- `k` clear bits from `s` on, the bitmap repeated as often as needed. -/
def ClearAround (a : BitmapAllocator) (s k : Nat) : Prop :=
  ∀ j < k, bitAt a.bitmap ((s + j) % (a.bitmap.length * 8)) = false

instance (a : BitmapAllocator) (s k : Nat) : Decidable (ClearAround a s k) :=
  inferInstanceAs (Decidable (∀ j < k, _))

/-- The last `k` bits are clear. -/
def TailClear (a : BitmapAllocator) (k : Nat) : Prop :=
  ∀ i, a.bitmap.length * 8 ≤ i + k → i < a.bitmap.length * 8 → bitAt a.bitmap i = false

theorem TailClear.mono {j : Nat} (h : TailClear a k) (hjk : j ≤ k) : TailClear a j :=
  fun i hi hlt => h i (by omega) hlt

theorem clear_bitUsed_iff (hn : 0 < a.bitmap.length) (hk : 0 < k) :
    Clear a.bitUsed 1 (a.size * 8) s k ↔ s + k ≤ a.bitmap.length * 64 ∧ ClearAround a s k := by
  have hsize := a.size_eq
  constructor
  · intro h
    refine ⟨?_, fun j hj => ?_⟩
    · have hlast := (h (k - 1) (by omega)).1
      omega
    · have hcell := (h j hj).2
      rw [Nat.mul_one, bitUsed_eq a hn] at hcell
      exact Except.ok.inj hcell
  · rintro ⟨hfits, h⟩ j hj
    rw [Nat.mul_one, bitUsed_eq a hn, h j hj]
    exact ⟨by omega, rfl⟩

/-- The far end of the search is the end of the bitmap. -/
theorem mod_tail {n x : Nat} (hx : 0 < x) (hle : x ≤ n * 8) :
    (n * 64 - x) % (n * 8) = n * 8 - x := by
  have hsum : n * 64 - x = n * 8 - x + n * 8 * 7 := by omega
  rw [hsum, Nat.add_mul_mod_self_left, Nat.mod_eq_of_lt (by omega)]

theorem clearAround_tail (hk : k ≤ a.bitmap.length * 8) :
    ClearAround a (a.bitmap.length * 64 - k) k ↔ TailClear a k := by
  constructor
  · intro h i hi hlt
    have hj := h (i + k - a.bitmap.length * 8) (by omega)
    rwa [show a.bitmap.length * 64 - k + (i + k - a.bitmap.length * 8)
        = a.bitmap.length * 64 - (a.bitmap.length * 8 - i) by omega,
      mod_tail (by omega) (by omega),
      show a.bitmap.length * 8 - (a.bitmap.length * 8 - i) = i by omega] at hj
  · intro h j hj
    rw [show a.bitmap.length * 64 - k + j = a.bitmap.length * 64 - (k - j) by omega,
      mod_tail (by omega) (by omega)]
    exact h _ (by omega) (by omega)

/-- No window of `t` clear bits lies between the search position and the far
    end. -/
def NoWindow (a : BitmapAllocator) (t : Nat) : Prop :=
  ∀ s, a.lastAllocated ≤ s → s + t ≤ a.bitmap.length * 64 → ¬ ClearAround a s t

variable {t : Nat}

/-- The first window is found. -/
theorem scanBits_found (hn : 0 < a.bitmap.length) (ht : 0 < t) (h : ¬ NoWindow a t) :
    ∃ s, a.scanBits t = .ok (.ok s) ∧ a.lastAllocated ≤ s ∧ s + t ≤ a.bitmap.length * 64
      ∧ ClearAround a s t
      ∧ ∀ u, a.lastAllocated ≤ u → u + t ≤ a.bitmap.length * 64 → ClearAround a u t → s ≤ u := by
  classical
  have hsize := a.size_eq
  have hex : ∃ s, a.lastAllocated ≤ s ∧ s + t ≤ a.bitmap.length * 64 ∧ ClearAround a s t := by
    by_contra hnone
    exact h fun s hlo hhi hclear => hnone ⟨s, hlo, hhi, hclear⟩
  obtain ⟨hlo, hhi, hclear⟩ := Nat.find_spec hex
  have hmin := fun u (hu : u < Nat.find hex) => Nat.find_min hex hu
  generalize Nat.find hex = s at *
  refine ⟨s, ?_, hlo, hhi, hclear, fun u hu₁ hu₂ hu₃ => ?_⟩
  · have hpos : a.lastAllocated + (s - a.lastAllocated) * 1 = s := by omega
    rw [BitmapAllocator.scanBits,
      scan_complete (by omega) ht (s - a.lastAllocated) (by omega), hpos]
    · intro m hm
      exact ⟨_, bitUsed_eq a hn⟩
    · intro m hm hwindow
      obtain ⟨hfits, haround⟩ := (clear_bitUsed_iff hn ht).mp hwindow
      exact hmin _ (by omega) ⟨by omega, hfits, haround⟩
    · rw [hpos]
      exact (clear_bitUsed_iff hn ht).mpr ⟨hhi, hclear⟩
  · by_contra hlt
    exact hmin u (by omega) ⟨hu₁, hu₂, hu₃⟩

/-- **NO WINDOW.**  The search gives up, the last bit being in use, or it returns
    the clear bits at the far end, however few. -/
theorem scanBits_missed (hn : 0 < a.bitmap.length) (ht : 0 < t)
    (hle : t ≤ a.bitmap.length * 8) (h : NoWindow a t) :
    (a.scanBits t = .ok (.error .allocationError)
        ∧ (a.bitmap.length * 64 ≤ a.lastAllocated ∨ ¬ TailClear a 1))
      ∨ ∃ k, 0 < k ∧ k < t ∧ a.lastAllocated + k ≤ a.bitmap.length * 64
        ∧ a.scanBits t = .ok (.ok (a.bitmap.length * 64 - k)) ∧ TailClear a k
        ∧ (a.lastAllocated + k = a.bitmap.length * 64 ∨ ¬ TailClear a (k + 1)) := by
  have hsize := a.size_eq
  have hused : ∀ {x : Nat}, 0 < x → x ≤ a.bitmap.length * 8 →
      a.bitUsed (a.bitmap.length * 64 - x) = .ok true → ¬ TailClear a x := by
    intro x hx hxle hcell htail
    rw [bitUsed_eq a hn, mod_tail hx hxle, htail _ (by omega) (by omega)] at hcell
    cases hcell
  obtain ⟨r, hr⟩ : ∃ r, a.scanBits t = .ok r := by
    rw [BitmapAllocator.scanBits]
    exact scan_total fun c _ => ⟨_, bitUsed_eq a hn⟩
  rw [hr]
  rw [BitmapAllocator.scanBits] at hr
  cases r with
  | error e =>
      left
      obtain ⟨rfl, hend⟩ := scan_exhausted (by omega) (by omega) hr
      refine ⟨rfl, ?_⟩
      rcases hend with hstart | ⟨m, hm, hmlt, hmend⟩
      · exact Or.inl (by omega)
      · right
        rw [show a.lastAllocated + m * 1 = a.bitmap.length * 64 - 1 by omega] at hm
        exact hused (by omega) (by omega) hm
  | ok s =>
      right
      obtain ⟨m, hs, -, hfound⟩ := scan_sound (by omega) (by omega) hr
      obtain ⟨hlt, hstart⟩ := scan_start (by omega) (by omega) hr
      rcases hfound with hwindow | ⟨k, hk, hkt, hpart, hend⟩
      · obtain ⟨hfits, haround⟩ := (clear_bitUsed_iff hn ht).mp hwindow
        exact absurd haround (h s (by omega) hfits)
      · obtain ⟨hfits, haround⟩ := (clear_bitUsed_iff hn hk).mp hpart
        have hsk : s = a.bitmap.length * 64 - k := by omega
        rw [hsk, clearAround_tail (by omega)] at haround
        refine ⟨k, hk, hkt, by omega, by rw [hsk], haround, ?_⟩
        rcases hstart with heq | ⟨m', hm', hcell⟩
        · exact Or.inl (by omega)
        · right
          rw [show a.lastAllocated + m' * 1 = a.bitmap.length * 64 - (k + 1) by omega] at hcell
          exact hused (by omega) (by omega) hcell

/-- The position is valid for `t` bits: from the search position on, not behind the
    far end, and all bits clear. -/
structure ValidAt (a : BitmapAllocator) (t s : Nat) : Prop where
  start : a.lastAllocated ≤ s
  fits : s + t ≤ 64 * a.bitmap.length
  clear : ∀ j, s ≤ j → j < s + t → bitAt a.bitmap (j % (8 * a.bitmap.length)) = false

theorem validAt_iff :
    ValidAt a t s ↔ a.lastAllocated ≤ s ∧ s + t ≤ a.bitmap.length * 64 ∧ ClearAround a s t := by
  rw [ClearAround, Nat.mul_comm a.bitmap.length 8]
  constructor
  · rintro ⟨hstart, hfits, hclear⟩
    exact ⟨hstart, by omega, fun j hj => hclear (s + j) (by omega) (by omega)⟩
  · rintro ⟨hstart, hfits, hclear⟩
    refine ⟨hstart, by omega, fun j hlo hhi => ?_⟩
    have hbit := hclear (j - s) (by omega)
    rwa [Nat.add_sub_cancel' hlo] at hbit

/-- **THE FIRST WINDOW, EXACTLY.**  For every bitmap, every search position and every
    target the two loops of `scan_bits` end.  They return the least valid position
    if there is one, and otherwise give up or return a position whose window
    passes the far end. -/
theorem scanBits_first (a : BitmapAllocator) (t : Nat) (hn : 1 ≤ a.bitmap.length)
    (ht : 1 ≤ t) :
    ∃ r, a.scanBits t = .ok r
      ∧ Scans a.bitUsed 1 (a.size * 8) t .allocationError a.lastAllocated r
      ∧ ((∃ s, ValidAt a t s) →
        ∃ s, r = .ok s ∧ ValidAt a t s ∧ ∀ u, ValidAt a t u → s ≤ u)
      ∧ ((¬ ∃ s, ValidAt a t s) →
        r = .error .allocationError ∨ ∃ s, r = .ok s ∧ 64 * a.bitmap.length < s + t) := by
  have hsize := a.size_eq
  obtain ⟨r, hr⟩ : ∃ r, a.scanBits t = .ok r := by
    rw [BitmapAllocator.scanBits]
    exact scan_total fun c _ => ⟨_, bitUsed_eq a hn⟩
  have hloop := hr
  rw [BitmapAllocator.scanBits] at hloop
  refine ⟨r, hr, scans_of_scan (by omega) (by omega) hloop, ?_, ?_⟩
  · rintro ⟨u, hu⟩
    have hwindow : ¬ NoWindow a t := by
      obtain ⟨hstart, hfits, hclear⟩ := validAt_iff.mp hu
      exact fun hnone => hnone u hstart hfits hclear
    obtain ⟨s, hs, hstart, hfits, hclear, hleast⟩ := scanBits_found hn ht hwindow
    cases hr.symm.trans hs
    refine ⟨s, rfl, validAt_iff.mpr ⟨hstart, hfits, hclear⟩, fun v hv => ?_⟩
    obtain ⟨hstart', hfits', hclear'⟩ := validAt_iff.mp hv
    exact hleast v hstart' hfits' hclear'
  · intro hnone
    cases r with
    | error e =>
        obtain ⟨rfl, -⟩ := scan_exhausted (by omega) (by omega) hloop
        exact Or.inl rfl
    | ok s =>
        refine Or.inr ⟨s, rfl, ?_⟩
        obtain ⟨m, hs, -, hfound⟩ := scan_sound (by omega) (by omega) hloop
        rcases hfound with hwindow | ⟨k, -, hkt, -, hend⟩
        · obtain ⟨hfits, hclear⟩ := (clear_bitUsed_iff hn ht).mp hwindow
          exact absurd ⟨s, validAt_iff.mpr ⟨by omega, hfits, hclear⟩⟩ hnone
        · omega

/-- Two bytes, the search starts in the second: the first window of six clear bits
    goes around the end. -/
theorem scanBits_first_sample :
    ∃ r, (ofBytes [0xF0#8, 0x3F#8] 9 (by decide) (by decide)).scanBits 6 = .ok r
      ∧ ∃ s, r = .ok s
        ∧ ValidAt (ofBytes [0xF0#8, 0x3F#8] 9 (by decide) (by decide)) 6 s ∧ s ≤ 14 := by
  obtain ⟨r, hr, -, hfound, -⟩ := scanBits_first
    (ofBytes [0xF0#8, 0x3F#8] 9 (by decide) (by decide)) 6 (by decide) (by decide)
  have hvalid : ValidAt (ofBytes [0xF0#8, 0x3F#8] 9 (by decide) (by decide)) 6 14 :=
    validAt_iff.mpr ⟨by decide, by decide, by decide⟩
  obtain ⟨s, hs, hs', hleast⟩ := hfound ⟨14, hvalid⟩
  exact ⟨r, hr, s, hs, hs', hleast 14 hvalid⟩

/-- The search for `bits` bits ends in the clear bits at the far end, and they
    are fewer than `bits`. -/
structure TailTooShort (a : BitmapAllocator) (bits : Nat) : Prop where
  pos : 0 < bits
  small : bits ≤ 16
  fits : bits < a.bitmap.length * 8
  started : a.lastAllocated < a.bitmap.length * 64
  missed : NoWindow a (byteTarget bits)
  tail : TailClear a 1
  short : ¬ (a.lastAllocated + bits ≤ a.bitmap.length * 64 ∧ TailClear a bits)

/-- **A MISSED REQUEST, INVERTED.**  Without a window, a request for up to
    sixteen bits fails and changes nothing; or the bits at the far end are
    enough, and it panics; or they are not, and it fails behind the end. -/
theorem alloc_missed (hpos : 0 < bits) (hsmall : bits ≤ 16)
    (hlt : bits < a.bitmap.length * 8) (h : NoWindow a (byteTarget bits)) :
    (a.alloc bits = .ok (.error .allocationError, a)
        ∧ (a.bitmap.length * 64 ≤ a.lastAllocated ∨ ¬ TailClear a 1))
      ∨ (a.lastAllocated + bits ≤ a.bitmap.length * 64 ∧ TailClear a bits
        ∧ ∃ p, a.alloc bits = .error p)
      ∨ (TailTooShort a bits ∧ ∃ pos hfit, a.lastAllocated < pos
        ∧ a.alloc bits = .ok (.error .outOfBounds, a.setLastAllocated pos hfit)) := by
  have hsize := a.size_eq
  have hbounded := a.bounded
  obtain ⟨hle, -⟩ := le_byteTarget hsmall
  have htarget : byteTarget bits ≤ a.bitmap.length * 8 := by
    rw [byteTarget]
    omega
  have hscan := scan_small hsmall (show bits < a.size by omega)
  rcases scanBits_missed (by omega) (by omega) htarget h with
    ⟨herr, hwhy⟩ | ⟨k, hk, hkt, hstart, hfound, htail, hfirst⟩
  · left
    exact ⟨alloc_of_scan_err (hscan.trans herr), hwhy⟩
  · right
    have hk16 : k < 16 := by
      rw [byteTarget] at hkt
      omega
    by_cases henough : bits ≤ k
    · left
      exact ⟨by omega, htail.mono henough,
        alloc_between hpos (hscan.trans hfound) (by omega) (by omega)⟩
    · right
      refine ⟨⟨hpos, hsmall, hlt, by omega, h, htail.mono hk, ?_⟩, _, by omega, by omega,
        alloc_far (hscan.trans hfound) (by omega) (by omega)⟩
      rintro ⟨hfits, hbits⟩
      rcases hfirst with heq | hused
      · omega
      · exact hused (hbits.mono (by omega))

/-! ## Failed calls -/

/-- Only a search for up to sixteen bits that found no window gets behind the
    checked bound. -/
theorem scan_far (hscan : a.scan bits = .ok (.ok s))
    (hfar : a.bitmap.length * 64 < s + bits) :
    0 < bits ∧ bits ≤ 16 ∧ bits < a.bitmap.length * 8 ∧ NoWindow a (byteTarget bits) := by
  have hsize := a.size_eq
  have hlt := scan_lt_size hscan
  have hsmall : bits ≤ 16 := by
    by_contra hbig
    rw [scan_big (by omega) hlt] at hscan
    have hfits := (scanBytes_sound (by omega) hlt hscan).1.fits
    omega
  obtain ⟨hle, -⟩ := le_byteTarget hsmall
  rw [scan_small hsmall hlt] at hscan
  have hpos : 0 < bits := by
    rw [BitmapAllocator.scanBits] at hscan
    have hbelow := (scan_start (by omega) (by omega) hscan).1
    omega
  refine ⟨hpos, hsmall, by omega, ?_⟩
  by_contra hwindow
  obtain ⟨u, hu, -, hfits, -⟩ := scanBits_found (by omega) (by omega) hwindow
  cases hscan.symm.trans hu
  omega

/-- A failed call leaves the allocator as it was: the bitmap, the search position,
    and with them the outcome of every later request. -/
def FailureKept (a : BitmapAllocator) (bits : Nat) : Prop :=
  ∀ e a', a.alloc bits = .ok (.error e, a') →
    a'.bitmap = a.bitmap ∧ a'.lastAllocated = a.lastAllocated
      ∧ ∀ requests, allocRun requests a' = allocRun requests a

/-- **FAILED CALLS, EXACTLY.**  A failed call changes nothing if and only if its
    search does not end in too few clear bits at the far end. -/
theorem alloc_failure_kept_iff (a : BitmapAllocator) (bits : Nat) :
    FailureKept a bits ↔ ¬ TailTooShort a bits := by
  constructor
  · rintro hkept hshort
    rcases alloc_missed hshort.pos hshort.small hshort.fits hshort.missed with
      ⟨-, hwhy⟩ | ⟨hfits, htail, -⟩ | ⟨-, pos, hfit, hmoved, halloc⟩
    · have hstarted := hshort.started
      rcases hwhy with hbehind | hlast
      · omega
      · exact hlast hshort.tail
    · exact hshort.short ⟨hfits, htail⟩
    · have hlast : pos = a.lastAllocated := (hkept _ _ halloc).2.1
      omega
  · intro hlong e a' halloc
    rcases alloc_err_cases halloc with rfl | ⟨rfl, -, s, hscan, hfar⟩
    · exact ⟨rfl, rfl, fun _ => rfl⟩
    · -- the call got behind the end, so its tail is too short
      exfalso
      obtain ⟨hpos, hsmall, hlt, hmissed⟩ := scan_far hscan hfar
      rcases alloc_missed hpos hsmall hlt hmissed with
        ⟨hok, -⟩ | ⟨-, -, p, hpanic⟩ | ⟨hshort, -⟩
      · cases hok.symm.trans halloc
      · cases hpanic.symm.trans halloc
      · exact hlong hshort

/-- Three bytes; one bit is free at the far end, and a whole byte in front. -/
def sampleTail (cursor : Nat) (hcursor : cursor < 2 ^ 64) : BitmapAllocator :=
  ofBytes [0#8, 0xFF#8, 0x7F#8] cursor (by decide) hcursor

/-- A request for nine bits fails behind the end, and the request for one bit that
    would have been served is refused from then on. -/
theorem failed_alloc_moves_cursor :
    (sampleTail 0 (by decide)).alloc 9 = .ok (.error .outOfBounds, sampleTail 200 (by decide))
      ∧ (sampleTail 0 (by decide)).alloc 1
        = .ok (.ok 0, ofBytes [1#8, 0xFF#8, 0x7F#8] 1 (by decide) (by decide))
      ∧ (sampleTail 200 (by decide)).alloc 1
        = .ok (.error .allocationError, sampleTail 200 (by decide))
      ∧ ¬ FailureKept (sampleTail 0 (by decide)) 9 := by
  have hfailed : (sampleTail 0 (by decide)).alloc 9
      = .ok (.error .outOfBounds, sampleTail 200 (by decide)) := by decide +kernel
  refine ⟨hfailed, by decide +kernel, by decide +kernel, fun hkept => ?_⟩
  exact absurd (hkept _ _ hfailed).2.1 (by decide)

/-! ## Room -/

/-- A run of clear bits of the bitmap that holds a byte-aligned block for the
    request. -/
def Room (a : BitmapAllocator) (bits : Nat) : Prop :=
  ∃ lo, lo + (byteTarget bits + 7) ≤ a.bitmap.length * 8
    ∧ ∀ i, lo ≤ i → i < lo + (byteTarget bits + 7) → bitAt a.bitmap i = false

/-- A call does not panic, and returns `Ok` if there is room. -/
def ServesRoom (a : BitmapAllocator) (bits : Nat) : Prop :=
  (∃ r a', a.alloc bits = .ok (r, a'))
    ∧ (Room a bits → ∃ s a', a.alloc bits = .ok (.ok s, a'))

/-- For up to sixteen bits: a window of whole bytes, around the end if need be,
    begins behind the search position with the bits asked for in the bitmap; or
    there is no window at all, and the last bits of the bitmap are not clear. -/
def SmallServable (a : BitmapAllocator) (bits : Nat) : Prop :=
  (∃ s, a.lastAllocated ≤ s ∧ s + bits ≤ a.bitmap.length * 8
      ∧ ClearAround a s (byteTarget bits))
    ∨ (∀ s, ¬ ClearAround a s (byteTarget bits)) ∧ ¬ TailClear a bits

/-- For more than sixteen bits: the byte search finds its sample; or it starts in
    the last byte or behind it, and there is no room. -/
def BigServable (a : BitmapAllocator) (bits : Nat) : Prop :=
  (∃ s, Sampled a bits s)
    ∨ a.bitmap.length * 8 < a.lastAllocated + 8 ∧ ¬ Room a bits

/-- The condition on the allocator and the request. -/
def Servable (a : BitmapAllocator) (bits : Nat) : Prop :=
  if bits ≤ 16 then SmallServable a bits else BigServable a bits

/-- A window can be moved around the bitmap. -/
theorem clearAround_congr {u : Nat}
    (hmod : u % (a.bitmap.length * 8) = s % (a.bitmap.length * 8))
    (h : ClearAround a s t) : ClearAround a u t := by
  intro j hj
  have hbit := h j hj
  rwa [Nat.add_mod, ← hmod, ← Nat.add_mod] at hbit

/-- From any search position inside the bitmap the first round meets it. -/
theorem window_ahead {c : Nat} (hn : 0 < a.bitmap.length) (h : ClearAround a s t) :
    ∃ u, c ≤ u ∧ u < c + a.bitmap.length * 8 ∧ ClearAround a u t := by
  have hpos : 0 < a.bitmap.length * 8 := by omega
  generalize hd : a.bitmap.length * 8 = d at *
  refine ⟨c + (s + (d - c % d)) % d, by omega, ?_, clearAround_congr ?_ h⟩
  · have := Nat.mod_lt (s + (d - c % d)) hpos
    omega
  · have hc := Nat.mod_lt c hpos
    have hsum : c + (s + (d - c % d)) = s + d * (c / d + 1) := by
      have := Nat.div_add_mod c d
      rw [Nat.mul_add, Nat.mul_one]
      omega
    rw [hd, Nat.add_mod, Nat.mod_mod, ← Nat.add_mod, hsum, Nat.add_mul_mod_self_left]

theorem Room.clearAround (h : Room a bits) : ∃ s, ClearAround a s (byteTarget bits) := by
  obtain ⟨lo, hfits, hclear⟩ := h
  refine ⟨lo, fun j hj => ?_⟩
  rw [Nat.mod_eq_of_lt (by omega)]
  exact hclear _ (by omega) (by omega)

/-- **UP TO SIXTEEN BITS.** -/
theorem smallServes_iff (hn : 0 < a.bitmap.length)
    (hcursor : a.lastAllocated ≤ a.bitmap.length * 8) (hpos : 0 < bits) (hsmall : bits ≤ 16)
    (hlt : bits < a.bitmap.length * 8) : ServesRoom a bits ↔ SmallServable a bits := by
  have hsize := a.size_eq
  obtain ⟨hle, h16⟩ := le_byteTarget hsmall
  by_cases hany : ∃ s, ClearAround a s (byteTarget bits)
  · obtain ⟨w, hw⟩ := hany
    obtain ⟨u, hu₁, hu₂, hu₃⟩ := window_ahead (c := a.lastAllocated) hn hw
    obtain ⟨s, hfound, hstart, hfits, hclear, hfirst⟩ := scanBits_found hn
      (show 0 < byteTarget bits by omega) fun hnone => hnone u hu₁ (by omega) hu₃
    have hscan := (scan_small hsmall (show bits < a.size by omega)).trans hfound
    by_cases hin : s + bits ≤ a.bitmap.length * 8
    · obtain ⟨a', halloc⟩ := alloc_of_scan hscan hin
      exact iff_of_true ⟨⟨_, _, halloc⟩, fun _ => ⟨_, _, halloc⟩⟩
        (Or.inl ⟨s, hstart, hin, hclear⟩)
    · -- the first window begins behind the bitmap
      obtain ⟨p, hpanic⟩ := alloc_between hpos hscan (by omega) (by omega)
      refine iff_of_false ?_ ?_
      · rintro ⟨⟨r, a', halloc⟩, -⟩
        cases hpanic.symm.trans halloc
      · rintro (⟨v, hv₁, hv₂, hv₃⟩ | ⟨hnone, -⟩)
        · have := hfirst v hv₁ (by omega) hv₃
          omega
        · exact hnone w hw
  · have hnone : ∀ s, ¬ ClearAround a s (byteTarget bits) := fun s hs => hany ⟨s, hs⟩
    have hroom : ¬ Room a bits := fun h => hany h.clearAround
    rcases alloc_missed hpos hsmall hlt (fun s _ _ => hnone s) with
      ⟨halloc, hwhy⟩ | ⟨-, htail, p, hpanic⟩ | ⟨hshort, pos, hfit, -, halloc⟩
    · refine iff_of_true ⟨⟨_, _, halloc⟩, fun h => absurd h hroom⟩
        (Or.inr ⟨hnone, fun htail => ?_⟩)
      rcases hwhy with hbehind | hlast
      · omega
      · exact hlast (htail.mono hpos)
    · refine iff_of_false ?_ ?_
      · rintro ⟨⟨r, a', halloc⟩, -⟩
        cases hpanic.symm.trans halloc
      · rintro (⟨v, -, -, hv⟩ | ⟨-, hnot⟩)
        · exact hnone v hv
        · exact hnot htail
    · refine iff_of_true ⟨⟨_, _, halloc⟩, fun h => absurd h hroom⟩
        (Or.inr ⟨hnone, fun htail => ?_⟩)
      exact hshort.short ⟨by omega, htail⟩

/-- The byte search panics at the first position that is no byte index, unless
    it has found its sample before. -/
theorem scanBytes_panics (hbits : 16 < bits) (hlt : bits < a.bitmap.length * 8)
    (hcursor : a.lastAllocated + 8 ≤ a.bitmap.length * 8) (hnone : ¬ ∃ s, Sampled a bits s) :
    a.scanBytes bits = .error .indexOutOfBounds := by
  have hsize := a.size_eq
  have hbounded := a.bounded
  obtain ⟨start, hstart⟩ := alignUp_total (show a.lastAllocated ≤ a.bitmap.length * 8 by omega)
    (by omega) (by omega)
  obtain ⟨hle, hlt8, hal⟩ := alignUp_eight hstart
  obtain ⟨m, hm, hbefore, hbelow⟩ : ∃ m, a.bitmap.length ≤ start + m * 8
      ∧ (∀ m' < m, start + m' * 8 < a.bitmap.length) ∧ start + m * 8 < a.size :=
    ⟨(a.bitmap.length - start + 7) / 8, by omega, fun m' hm' => by omega, by omega⟩
  rw [BitmapAllocator.scanBytes, hstart, ok_bind]
  refine scan_panics (by omega) m (by omega) ?_ ?_ hbelow ?_
  · intro m' hm'
    have hread := hbefore m' hm'
    rw [BitmapAllocator.byteUsed, Nat.mod_eq_of_lt (by omega), byteAt_ok hread]
    exact ⟨_, rfl⟩
  · intro m' _ hclear
    obtain ⟨hfits, hzero⟩ := (clear_byteUsed_iff (by omega)).mp hclear
    exact hnone ⟨_, by omega, by omega, hfits, hzero⟩
  · rw [BitmapAllocator.byteUsed, Nat.mod_eq_of_lt hbelow, byteAt, if_neg (by omega)]
    rfl

/-- **MORE THAN SIXTEEN BITS.** -/
theorem bigServes_iff (hcursor : a.lastAllocated ≤ a.bitmap.length * 8) (hbits : 16 < bits)
    (hlt : bits < a.bitmap.length * 8) : ServesRoom a bits ↔ BigServable a bits := by
  classical
  have hsize := a.size_eq
  have hbounded := a.bounded
  have hscan := scan_big hbits (show bits < a.size by omega)
  by_cases hsample : ∃ s, Sampled a bits s
  · have hfound := scanBytes_complete hbits (Nat.find_spec hsample)
      fun t ht => Nat.find_min hsample ht
    have hfits := (Nat.find_spec hsample).fits
    obtain ⟨a', halloc⟩ := alloc_of_scan (hscan.trans hfound) (by omega)
    exact iff_of_true ⟨⟨_, _, halloc⟩, fun _ => ⟨_, _, halloc⟩⟩ (Or.inl hsample)
  · rw [BigServable, or_iff_right hsample]
    by_cases hlast : a.bitmap.length * 8 < a.lastAllocated + 8
    · obtain ⟨start, hstart⟩ := alignUp_total hcursor (by omega) (by omega)
      obtain ⟨hle, -, hal⟩ := alignUp_eight hstart
      have herr : a.scanBytes bits = .ok (.error .allocationError) := by
        rw [BitmapAllocator.scanBytes, hstart, ok_bind]
        exact scan_past (by omega)
      have halloc := alloc_of_scan_err (hscan.trans herr)
      constructor
      · rintro ⟨-, hserved⟩
        refine ⟨hlast, fun hroom => ?_⟩
        obtain ⟨s, a', hok⟩ := hserved hroom
        cases halloc.symm.trans hok
      · rintro ⟨-, hroom⟩
        exact ⟨⟨_, _, halloc⟩, fun h => absurd h hroom⟩
    · refine iff_of_false ?_ fun h => hlast h.1
      rintro ⟨⟨r, a', halloc⟩, -⟩
      rw [BitmapAllocator.alloc, hscan, scanBytes_panics hbits hlt (by omega) hsample] at halloc
      cases halloc

/-- **ROOM, EXACTLY.**  For every bitmap and every search position in it, a
    request returns, and returns `Ok` if there is room, if and only if it is
    servable. -/
theorem alloc_serves_iff (a : BitmapAllocator) (bits : Nat) (hn : 1 ≤ a.bitmap.length)
    (hcursor : a.lastAllocated ≤ 8 * a.bitmap.length) (hpos : 1 ≤ bits)
    (hlt : bits < 8 * a.bitmap.length) : ServesRoom a bits ↔ Servable a bits := by
  rw [Servable]
  split
  · next hsmall => exact smallServes_iff hn (by omega) hpos hsmall (by omega)
  · next hbig => exact bigServes_iff (by omega) (by omega) (by omega)

theorem alloc_serves_iff_sample :
    ServesRoom (ofBytes [0xFF#8, 0#8, 0#8] 8 (by decide) (by decide)) 5 := by
  refine (alloc_serves_iff _ 5 (by decide) (by decide) (by decide) (by decide)).mpr ?_
  exact Or.inl ⟨8, by decide, by decide, by decide⟩

/-- Two bytes are clear, but the search starts behind them and returns bit 24 of
    24; and the byte search leaves an empty bitmap of four bytes at its second
    position. -/
theorem room_is_not_served :
    Room (ofBytes [0#8, 0#8, 0xFF#8] 16 (by decide) (by decide)) 1
      ∧ (ofBytes [0#8, 0#8, 0xFF#8] 16 (by decide) (by decide)).alloc 1
        = .error .indexOutOfBounds
      ∧ Room (ofBytes [0#8, 0#8, 0#8, 0#8] 0 (by decide) (by decide)) 17
      ∧ (ofBytes [0#8, 0#8, 0#8, 0#8] 0 (by decide) (by decide)).alloc 17
        = .error .indexOutOfBounds
      ∧ ¬ ServesRoom (ofBytes [0#8, 0#8, 0xFF#8] 16 (by decide) (by decide)) 1
      ∧ ¬ ServesRoom (ofBytes [0#8, 0#8, 0#8, 0#8] 0 (by decide) (by decide)) 17 := by
  have h₁ : (ofBytes [0#8, 0#8, 0xFF#8] 16 (by decide) (by decide)).alloc 1
      = .error .indexOutOfBounds := by decide +kernel
  have h₂ : (ofBytes [0#8, 0#8, 0#8, 0#8] 0 (by decide) (by decide)).alloc 17
      = .error .indexOutOfBounds := by decide +kernel
  refine ⟨⟨0, by decide, fun i _ hi => ?_⟩, h₁, ⟨0, by decide, fun i _ hi => ?_⟩, h₂, ?_, ?_⟩
  · have hclear : ∀ i < 15, bitAt [0#8, 0#8, 0xFF#8] i = false := by decide
    exact hclear i hi
  · have hclear : ∀ i < 31, bitAt [0#8, 0#8, 0#8, 0#8] i = false := by decide
    exact hclear i hi
  · rintro ⟨⟨r, a', halloc⟩, -⟩
    cases h₁.symm.trans halloc
  · rintro ⟨⟨r, a', halloc⟩, -⟩
    cases h₂.symm.trans halloc

end KermolBitmapRoom
