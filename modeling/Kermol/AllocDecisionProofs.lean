import Kermol.BitmapRoomProofs

/-! # What `alloc` decides, bit by bit

    What a call of `alloc` does is decided by the length of the slice, the
    search position and the bits: `View` is these three.  `Serves` and
    `Refuses` say of a view which requests are served and where, and which are
    answered with an error; the requests that are neither panic.

    * `alloc_ok_iff` and `alloc_err_iff`: the code decides as the view says;
    * `view_alloc`: after a served request the view is the marked one.

    So a run of requests can be followed on the view, without a bitmap in
    between. -/

namespace KermolAllocDecision

open RustEffect KermolFrameAllocator KermolBitmap BitmapAllocator KermolBitmapScan
open KermolBitmapRoom ByteBits WindowScan

/-- The number of bytes, the search position, and which bits are in use. -/
@[ext] structure View where
  bytes : Nat
  cursor : Nat
  used : Nat → Bool

/-- What `alloc` looks at. -/
def view (a : BitmapAllocator) : View := ⟨a.bitmap.length, a.lastAllocated, bitAt a.bitmap⟩

namespace View

/-- The bits `s .. s + k` are taken, and the next search starts behind them. -/
def mark (v : View) (s k : Nat) : View :=
  ⟨v.bytes, s + k, fun i => v.used i || decide (s ≤ i ∧ i < s + k)⟩

/-- `k` clear bits from `s` on, the bitmap repeated as often as needed. -/
def Around (v : View) (s k : Nat) : Prop :=
  ∀ j < k, v.used ((s + j) % (v.bytes * 8)) = false

instance (v : View) (s k : Nat) : Decidable (v.Around s k) :=
  inferInstanceAs (Decidable (∀ j < k, _))

/-- The last `k` bits are clear. -/
def Tail (v : View) (k : Nat) : Prop :=
  ∀ i, v.bytes * 8 ≤ i + k → i < v.bytes * 8 → v.used i = false

/-- Where a search for `bits` bits may end.  Up to sixteen bits: at as many
    clear bits, rounded up to whole bytes.  Above: at a byte index, a multiple
    of eight, such that `bits` bytes at a distance of eight are clear. -/
def Place (v : View) (bits s : Nat) : Prop :=
  v.cursor ≤ s ∧
    if bits ≤ 16 then v.Around s (byteTarget bits)
    else s % 8 = 0 ∧ s + 8 * (bits - 1) < v.bytes
      ∧ ∀ k < bits, ∀ j < 8, v.used (8 * (s + 8 * k) + j) = false

instance (v : View) (bits s : Nat) : Decidable (v.Place bits s) := by
  unfold Place
  infer_instance

/-- The request is served at `s`: the first place, if the bits from there on lie
    in the slice. -/
structure Serves (v : View) (bits s : Nat) : Prop where
  size : bits < v.bytes * 8
  fits : s + bits ≤ v.bytes * 8
  place : v.Place bits s
  least : ∀ u < s, ¬ v.Place bits u

/-- The request is answered with an error: it is too large; or the bit search
    passes the far end and does not stop in the last `bits` bits; or the byte
    search starts behind its last byte. -/
def Refuses (v : View) (bits : Nat) : Prop :=
  v.bytes * 8 ≤ bits ∨
    if bits ≤ 16 then
      (∀ s, s + byteTarget bits ≤ v.bytes * 64 → ¬ v.Place bits s)
        ∧ ¬ (v.cursor + bits ≤ v.bytes * 64 ∧ v.Tail bits)
    else v.bytes * 8 < v.cursor + 8 ∧ v.cursor ≤ 2 ^ 64 - 8

/-- Every bit of the window is in use. -/
def Taken (v : View) (s k : Nat) : Prop := ∀ i, s ≤ i → i < s + k → v.used i = true

end View

variable {a a' : BitmapAllocator} {bits s : Nat}

/-! ## The places -/

/-- A byte is zero when its eight bits are clear. -/
theorem byte_zero_iff {bytes : List Byte} {k : Nat} :
    bytes.getD k 0#8 = 0#8 ↔ ∀ j < 8, bitAt bytes (8 * k + j) = false := by
  constructor
  · intro h j hj
    rw [bitAt, show (8 * k + j) / 8 = k by omega, h]
    exact BitVec.getLsbD_zero
  · intro h
    apply BitVec.eq_of_getLsbD_eq
    intro j hj
    have hbit := h j hj
    rw [bitAt, show (8 * k + j) / 8 = k by omega, show (8 * k + j) % 8 = j by omega] at hbit
    rw [hbit, BitVec.getLsbD_zero]

theorem place_small_iff (hsmall : bits ≤ 16) :
    (view a).Place bits s ↔ a.lastAllocated ≤ s ∧ ClearAround a s (byteTarget bits) := by
  rw [View.Place, if_pos hsmall]
  exact Iff.rfl

theorem place_big_iff (hbig : 16 < bits) : (view a).Place bits s ↔ Sampled a bits s := by
  rw [View.Place, if_neg (by omega)]
  constructor
  · rintro ⟨hstart, hal, hfits, hclear⟩
    exact ⟨hal, hstart, hfits, fun k hk => byte_zero_iff.mpr (hclear k hk)⟩
  · rintro ⟨hal, hstart, hfits, hzero⟩
    exact ⟨hstart, hal, hfits, fun k hk => byte_zero_iff.mp (hzero k hk)⟩

/-- A place in the slice lies before the far end, so it is a window. -/
theorem place_window (hsmall : bits ≤ 16) (hplace : (view a).Place bits s)
    (hfits : s + bits ≤ a.bitmap.length * 8) :
    ¬ NoWindow a (byteTarget bits) := by
  obtain ⟨hstart, hclear⟩ := (place_small_iff hsmall).mp hplace
  refine fun hnone => hnone s hstart ?_ hclear
  rw [byteTarget]
  omega

/-! ## Requests that are served -/

/-- `scan` ends at the first place. -/
theorem scan_of_serves (hpos : 0 < bits) (h : (view a).Serves bits s) :
    a.scan bits = .ok (.ok s) := by
  have hsize := a.size_eq
  have hlt : bits < a.bitmap.length * 8 := h.size
  have hfits : s + bits ≤ a.bitmap.length * 8 := h.fits
  by_cases hsmall : bits ≤ 16
  · obtain ⟨hle, h16⟩ := le_byteTarget hsmall
    obtain ⟨t, hfound, hstart, hend, hclear, hfirst⟩ := scanBits_found (by omega)
      (by omega) (place_window hsmall h.place hfits)
    obtain ⟨hs, hs'⟩ := (place_small_iff hsmall).mp h.place
    have hts : t ≤ s := by
      refine hfirst s hs ?_ hs'
      rw [byteTarget]
      omega
    have hst : s ≤ t := by
      by_contra hlt'
      exact h.least t (by omega) ((place_small_iff hsmall).mpr ⟨hstart, hclear⟩)
    rw [scan_small hsmall (by omega), hfound, Nat.le_antisymm hts hst]
  · rw [scan_big (by omega) (by omega)]
    exact scanBytes_complete (by omega) ((place_big_iff (by omega)).mp h.place)
      fun t ht hsample => h.least t ht ((place_big_iff (by omega)).mpr hsample)

/-- **SERVED, EXACTLY.** -/
theorem alloc_ok_iff (hpos : 0 < bits) :
    (∃ a', a.alloc bits = .ok (.ok s, a')) ↔ (view a).Serves bits s := by
  have hsize := a.size_eq
  constructor
  · rintro ⟨a', halloc⟩
    obtain ⟨hscan, hfits, -⟩ := alloc_cases hpos halloc
    have hlt := scan_lt_size hscan
    suffices hfirst : (view a).Place bits s ∧ ∀ u < s, ¬ (view a).Place bits u from
      ⟨show bits < a.bitmap.length * 8 by omega, hfits, hfirst.1, hfirst.2⟩
    by_cases hsmall : bits ≤ 16
    · obtain ⟨hle, h16⟩ := le_byteTarget hsmall
      have htarget : byteTarget bits ≤ a.bitmap.length * 8 := by
        rw [byteTarget]
        omega
      -- a window was found: what is left at the far end would not fit
      have hwindow : ¬ NoWindow a (byteTarget bits) := by
        intro hnone
        rw [scan_small hsmall hlt] at hscan
        rcases scanBits_missed (by omega) (by omega) htarget hnone with
          ⟨herr, -⟩ | ⟨k, hk, hkt, hstart, hfound, -⟩
        · cases hscan.symm.trans herr
        · cases hscan.symm.trans hfound
          omega
      obtain ⟨t, hfound, hstart, -, hclear, hfirst⟩ := scanBits_found (by omega) (by omega) hwindow
      rw [scan_small hsmall hlt] at hscan
      cases hscan.symm.trans hfound
      refine ⟨(place_small_iff hsmall).mpr ⟨hstart, hclear⟩, fun u hu hplace => ?_⟩
      obtain ⟨hu', hclear'⟩ := (place_small_iff hsmall).mp hplace
      have := hfirst u hu' (by rw [byteTarget]; omega) hclear'
      omega
    · rw [scan_big (by omega) hlt] at hscan
      obtain ⟨hsample, hfirst⟩ := scanBytes_sound (by omega) hlt hscan
      exact ⟨(place_big_iff (by omega)).mpr hsample,
        fun u hu hplace => hfirst u hu ((place_big_iff (by omega)).mp hplace)⟩
  · intro h
    exact alloc_of_scan (scan_of_serves hpos h) h.fits

/-- **THE VIEW AFTER A SERVED REQUEST.** -/
theorem view_alloc (hpos : 0 < bits) (h : a.alloc bits = .ok (.ok s, a')) :
    view a' = (view a).mark s bits := by
  obtain ⟨-, -, -, hlength, hlast, hbit⟩ := alloc_cases hpos h
  exact View.ext hlength hlast (funext hbit)

/-! ## Requests that are refused -/

theorem noWindow_iff (hsmall : bits ≤ 16) :
    (∀ s, s + byteTarget bits ≤ a.bitmap.length * 64 → ¬ (view a).Place bits s)
      ↔ NoWindow a (byteTarget bits) := by
  simp only [place_small_iff hsmall]
  exact ⟨fun h s hstart hfits hclear => h s hfits ⟨hstart, hclear⟩,
    fun h s hfits hplace => h s hplace.1 hfits hplace.2⟩

theorem alloc_large (hlarge : a.bitmap.length * 8 ≤ bits) :
    a.alloc bits = .ok (.error .outOfBounds, a) := by
  have hsize := a.size_eq
  refine alloc_of_scan_err ?_
  rw [BitmapAllocator.scan, if_pos (by omega)]
  rfl

/-- Up to sixteen bits. -/
theorem alloc_err_small_iff (hpos : 0 < bits) (hsmall : bits ≤ 16)
    (hlt : bits < a.bitmap.length * 8) :
    (∃ e a', a.alloc bits = .ok (.error e, a'))
      ↔ NoWindow a (byteTarget bits)
        ∧ ¬ (a.lastAllocated + bits ≤ a.bitmap.length * 64 ∧ TailClear a bits) := by
  have hsize := a.size_eq
  obtain ⟨hle, h16⟩ := le_byteTarget hsmall
  by_cases hwindow : NoWindow a (byteTarget bits)
  · rcases alloc_missed hpos hsmall hlt hwindow with
      ⟨halloc, hwhy⟩ | ⟨hfits, htail, p, hpanic⟩ | ⟨hshort, pos, hfit, -, halloc⟩
    · refine iff_of_true ⟨_, _, halloc⟩ ⟨hwindow, fun ⟨hfits, htail⟩ => ?_⟩
      rcases hwhy with hbehind | hlast
      · omega
      · exact hlast (htail.mono hpos)
    · refine iff_of_false ?_ fun h => h.2 ⟨hfits, htail⟩
      rintro ⟨e, a', halloc⟩
      cases hpanic.symm.trans halloc
    · exact iff_of_true ⟨_, _, halloc⟩ ⟨hwindow, hshort.short⟩
  · -- a window is handed out, or lies behind the slice, where `flag_range` panics
    refine iff_of_false ?_ fun h => hwindow h.1
    rintro ⟨e, a', halloc⟩
    obtain ⟨s, hfound, -, hfits, -⟩ := scanBits_found (by omega) (by omega) hwindow
    have hscan := (scan_small hsmall (show bits < a.size by omega)).trans hfound
    by_cases hin : s + bits ≤ a.bitmap.length * 8
    · obtain ⟨a₁, hok⟩ := alloc_of_scan hscan hin
      cases hok.symm.trans halloc
    · obtain ⟨p, hpanic⟩ := alloc_between hpos hscan (by omega) (by omega)
      cases hpanic.symm.trans halloc

/-- More than sixteen bits. -/
theorem alloc_err_big_iff (hbig : 16 < bits) (hlt : bits < a.bitmap.length * 8) :
    (∃ e a', a.alloc bits = .ok (.error e, a'))
      ↔ a.bitmap.length * 8 < a.lastAllocated + 8 ∧ a.lastAllocated ≤ 2 ^ 64 - 8 := by
  classical
  have hsize := a.size_eq
  have hbounded := a.bounded
  have hscan := scan_big hbig (show bits < a.size by omega)
  by_cases hlast : a.bitmap.length * 8 < a.lastAllocated + 8
  · by_cases hround : a.lastAllocated ≤ 2 ^ 64 - 8
    · obtain ⟨start, hstart⟩ := alignUp_total hround (by omega) (by omega)
      obtain ⟨hle, -, hal⟩ := alignUp_eight hstart
      have herr : a.scanBytes bits = .ok (.error .allocationError) := by
        rw [BitmapAllocator.scanBytes, hstart, ok_bind]
        exact scan_past (by omega)
      exact iff_of_true ⟨_, _, alloc_of_scan_err (hscan.trans herr)⟩ ⟨hlast, hround⟩
    · -- rounding the search position up does not fit in 64 bits
      refine iff_of_false ?_ fun h => hround h.2
      rintro ⟨e, a', halloc⟩
      have hcursor := a.cursor
      have hround' : alignUp a.lastAllocated 8 = .error .overflow := by
        rw [alignUp, if_neg (by omega), if_neg (by omega)]
      rw [BitmapAllocator.alloc, hscan, BitmapAllocator.scanBytes, hround'] at halloc
      cases halloc
  · refine iff_of_false ?_ fun h => hlast h.1
    rintro ⟨e, a', halloc⟩
    by_cases hsample : ∃ s, Sampled a bits s
    · have hfound := scanBytes_complete hbig (Nat.find_spec hsample)
        fun t ht => Nat.find_min hsample ht
      have hfits := (Nat.find_spec hsample).fits
      obtain ⟨a₁, hok⟩ := alloc_of_scan (hscan.trans hfound) (by omega)
      cases hok.symm.trans halloc
    · rw [BitmapAllocator.alloc, hscan, scanBytes_panics hbig hlt (by omega) hsample] at halloc
      cases halloc

/-- **REFUSED, EXACTLY.** -/
theorem alloc_err_iff (hpos : 0 < bits) :
    (∃ e a', a.alloc bits = .ok (.error e, a')) ↔ (view a).Refuses bits := by
  by_cases hlt : bits < a.bitmap.length * 8
  · have hsize : ¬ (view a).bytes * 8 ≤ bits := Nat.not_le.mpr hlt
    rw [View.Refuses, or_iff_right hsize]
    split
    · next hsmall =>
        rw [alloc_err_small_iff hpos hsmall hlt, ← noWindow_iff hsmall]
        exact Iff.rfl
    · next hbig => exact alloc_err_big_iff (by omega) hlt
  · exact iff_of_true ⟨_, _, alloc_large (by omega)⟩ (Or.inl (Nat.le_of_not_lt hlt))

/-- No view does both. -/
theorem not_serves_of_refuses (hpos : 0 < bits) (h : (view a).Refuses bits) :
    ¬ (view a).Serves bits s := by
  intro hserves
  obtain ⟨a₁, hok⟩ := (alloc_ok_iff hpos).mpr hserves
  obtain ⟨e, a₂, herr⟩ := (alloc_err_iff hpos).mpr h
  cases hok.symm.trans herr

/-- What a request for up to sixteen bits hands out was clear. -/
theorem View.Serves.clear {v : View} (h : v.Serves bits s) (hsmall : bits ≤ 16) {i : Nat}
    (hlo : s ≤ i) (hhi : i < s + bits) : v.used i = false := by
  obtain ⟨-, hclear⟩ := h.place
  rw [if_pos hsmall] at hclear
  have hfits := h.fits
  have hbit := hclear (i - s) (by rw [byteTarget]; omega)
  rwa [Nat.add_sub_cancel' hlo, Nat.mod_eq_of_lt (by omega)] at hbit

/-- A view serves a request at one place only. -/
theorem View.Serves.unique {v : View} {t : Nat} (hs : v.Serves bits s) (ht : v.Serves bits t) :
    s = t := by
  rcases Nat.lt_trichotomy s t with hlt | heq | hlt
  · exact absurd hs.place (ht.least s hlt)
  · exact heq
  · exact absurd ht.place (hs.least t hlt)

end KermolAllocDecision
