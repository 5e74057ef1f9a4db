import Kermol.ByteBitsProofs
import Kermol.FallibleProofs
import Kermol.RasterProofs

/-! # The linear framebuffer

    `LinearFramebuffer` draws into a slice of `width * height` pixels.  The file
    has the code of `plot`, `plot_glyph` and `scroll`, and for each of them one
    lemma that says what every pixel shows afterwards: `plot_ok`,
    `plotGlyph_ok` and `scroll_ok`.  `plotGlyph_exact` and `scroll_exact` say it
    for every call.

    `plot_glyph` walks the bits of a glyph and the cells of a rectangle at the
    same pace.  Both are rasters, and bit `k` meets the cell of index `k`:
    that is the invariant of its loop (`drawn_cons`). -/

namespace KermolFramebuffer

open RustEffect ByteBits Raster

/-! ## The code -/

/-- A pixel. -/
abbrev Color := BitVec 32

/-- `LinearFramebuffer`: `dimensions` and the pixels.  No slice has more than
    `isize::MAX` bytes, and a pixel has four. -/
@[ext]
structure LinearFramebuffer where
  width : Nat
  height : Nat
  buffer : List Color
  length_eq : buffer.length = width * height
  bounded : width * height < 2 ^ 61
  width_lt : width < 2 ^ 64
  height_lt : height < 2 ^ 64
deriving Repr

instance : DecidableEq LinearFramebuffer := fun _ _ =>
  decidable_of_iff _ LinearFramebuffer.ext_iff.symm

/-- `LinearFramebufferError` -/
inductive LinearFramebufferError where
  | unsupportedPixelDepth
  | outOfBounds
deriving DecidableEq, Repr

/-- The bits of a glyph in the order of drawing: byte after byte, the most
    significant bit first. -/
def glyphBits (glyph : List Byte) : List Bool :=
  glyph.flatMap fun (byte : Byte) => (List.range 8).map fun bit =>
    ((byte >>> (7 - bit)) &&& 1#8) != 0#8

namespace LinearFramebuffer

/-- The framebuffer with other pixels. -/
def write (self : LinearFramebuffer) (pixels : List Color)
    (h : pixels.length = self.buffer.length) : LinearFramebuffer where
  width := self.width
  height := self.height
  buffer := pixels
  length_eq := h.trans self.length_eq
  bounded := self.bounded
  width_lt := self.width_lt
  height_lt := self.height_lt

/-- `plot` -/
def plot (self : LinearFramebuffer) (x y : Nat) (color : Color) :
    Panics LinearFramebuffer := do
  let row ← usize (y * self.width)
  let offset ← usize (x + row)
  if offset < self.buffer.length then
    return self.write (self.buffer.set offset color) List.length_set
  else .error .indexOutOfBounds

/-- The loops of `plot_glyph`, from cell `(currentX, currentY)` of the rectangle
    on.  `break 'outer` leaves both loops, so they are one loop over the bits. -/
def plotBits (x y width height : Nat) (color background : Color) :
    List Bool → Nat → Nat → LinearFramebuffer → Panics LinearFramebuffer
  | [], _, _, self => return self
  | bit :: bits, currentX, currentY, self => do
      let usedColor := if bit then color else background
      let px ← usize (currentX + x)
      let py ← usize (currentY + y)
      let self ← self.plot px py usedColor
      if width ≤ currentX + 1 then
        if height ≤ currentY + 1 then return self
        else plotBits x y width height color background bits 0 (currentY + 1) self
      else plotBits x y width height color background bits (currentX + 1) currentY self

/-- `plot_glyph` -/
def plotGlyph (self : LinearFramebuffer) (x y width height : Nat) (glyphBitmap : List Byte)
    (color background : Color) : Fallible LinearFramebufferError LinearFramebuffer Unit :=
  show Panics _ from do
    let right ← usize (x + width)
    if self.width < right then return (.error .outOfBounds, self)
    else do
      let bottom ← usize (y + height)
      if self.height < bottom then return (.error .outOfBounds, self)
      else do
        let self ← plotBits x y width height color background (glyphBits glyphBitmap) 0 0 self
        return (.ok (), self)

/-- `ptr::copy` inside the slice.  An access outside it would be undefined; the
    model stops there. -/
def ptrCopy (self : LinearFramebuffer) (src dst count : Nat) : Panics LinearFramebuffer :=
  if src + count ≤ self.buffer.length ∧ dst + count ≤ self.buffer.length then
    .ok (self.write (copy self.buffer src dst count) (length_copy _ _ _ _))
  else .error .indexOutOfBounds

/-- A raw write into the slice. -/
def ptrWrite (self : LinearFramebuffer) (i : Nat) (color : Color) :
    Panics LinearFramebuffer :=
  if i < self.buffer.length then
    .ok (self.write (self.buffer.set i color) List.length_set)
  else .error .indexOutOfBounds

/-- `scroll` -/
def scroll (self : LinearFramebuffer) (layers : Nat) (color : Color) :
    Panics LinearFramebuffer := do
  let moved ← usize (layers * self.width)
  let rest ← usizeSub self.height layers
  let kept ← usize (self.width * rest)
  let lfb ← self.ptrCopy moved 0 kept
  (List.range moved).foldlM (fun lfb i => lfb.ptrWrite (kept + i) color) lfb

end LinearFramebuffer

/-! ## What every pixel shows -/

/-- The pixel in column `x` of row `y`. -/
def LinearFramebuffer.pixel (self : LinearFramebuffer) (x y : Nat) : Color :=
  self.buffer.getD (index self.width x y) 0#32

/-- The framebuffer keeps its size and shows `picture`. -/
structure Shows (lfb lfb' : LinearFramebuffer) (picture : Nat → Nat → Color) : Prop where
  width : lfb'.width = lfb.width
  height : lfb'.height = lfb.height
  pixel : ∀ x < lfb.width, ∀ y < lfb.height, lfb'.pixel x y = picture x y

variable {lfb lfb' : LinearFramebuffer} {x y width height : Nat}
  {color background : Color}

theorem LinearFramebuffer.index_lt_length (hx : x < lfb.width) (hy : y < lfb.height) :
    index lfb.width x y < lfb.buffer.length := by
  rw [lfb.length_eq]
  exact index_lt hx hy

/-- **`plot`** writes at the place of the pixel. -/
theorem plot_eq (color : Color) (hx : x < lfb.width) (hy : y < lfb.height) :
    lfb.plot x y color
      = .ok (lfb.write (lfb.buffer.set (index lfb.width x y) color) List.length_set) := by
  have hlt := LinearFramebuffer.index_lt_length hx hy
  have hsize := lfb.bounded
  rw [lfb.length_eq, index] at hlt
  rw [LinearFramebuffer.plot, usize_ok (by omega), ok_bind, usize_ok (by omega), ok_bind,
    if_pos (by rw [lfb.length_eq]; exact hlt)]
  rfl

/-- So it changes the one pixel. -/
theorem plot_ok (color : Color) (hx : x < lfb.width) (hy : y < lfb.height) :
    ∃ lfb', lfb.plot x y color = .ok lfb'
      ∧ Shows lfb lfb' fun px py => if px = x ∧ py = y then color else lfb.pixel px py := by
  refine ⟨_, plot_eq color hx hy, rfl, rfl, ?_⟩
  intro px hpx py hpy
  show (lfb.buffer.set (index lfb.width x y) color).getD (index lfb.width px py) 0#32 = _
  rw [getD_set _ _ (LinearFramebuffer.index_lt_length hx hy)]
  simp only [index_inj hpx hx]
  rfl

/-! ## Glyphs -/

/-- Bit `k` of a glyph, the most significant bit of a byte first. -/
def glyphBit (glyph : List Byte) (k : Nat) : Bool :=
  (glyph.getD (k / 8) 0#8).getLsbD (7 - k % 8)

/-- The test of `plot_glyph` reads one bit of the byte. -/
theorem shift_and_one_ne_zero (byte : Byte) (k : Nat) :
    (((byte >>> k) &&& 1#8) != 0#8) = byte.getLsbD k := by
  have h := and_shift_ne_zero (byte >>> k) (k := 0) (by omega)
  rw [BitVec.shiftLeft_zero] at h
  rw [h, BitVec.getLsbD_ushiftRight, Nat.add_zero]

theorem length_glyphBits (glyph : List Byte) : (glyphBits glyph).length = 8 * glyph.length :=
  length_flatMap_rows (fun _ => by rw [List.length_map, List.length_range]) glyph

/-- The bytes of a glyph are rows of eight bits. -/
theorem getD_glyphBits {glyph : List Byte} {k : Nat} :
    (glyphBits glyph).getD k false = glyphBit glyph k := by
  have hk : index 8 (k % 8) (k / 8) = k := by
    rw [index]
    omega
  rw [glyphBit]
  by_cases hin : k / 8 < glyph.length
  · have hbit : k % 8 < 8 := Nat.mod_lt _ (by decide)
    rw [← congrArg ((glyphBits glyph).getD · false) hk, glyphBits,
      getD_flatMap_rows (fun _ => by rw [List.length_map, List.length_range]) hbit _ hin,
      List.getD_eq_getElem _ _ (by simpa using hbit), List.getD_eq_getElem _ _ hin]
    simp only [List.getElem_map, List.getElem_range]
    exact shift_and_one_ne_zero _ _
  · rw [List.getD_eq_default _ _ (by rw [length_glyphBits]; omega),
      List.getD_eq_default _ _ (by omega)]
    exact BitVec.getLsbD_zero.symm

/-- The pixel belongs to the rectangle. -/
def InRect (x y width height px py : Nat) : Prop :=
  x ≤ px ∧ px < x + width ∧ y ≤ py ∧ py < y + height

instance (x y width height px py : Nat) : Decidable (InRect x y width height px py) :=
  inferInstanceAs (Decidable (_ ∧ _))

/-- The picture with `bits` drawn into the cells of the rectangle from index
    `t` on. -/
def drawn (x y width height : Nat) (color background : Color) (bits : List Bool) (t : Nat)
    (old : Nat → Nat → Color) (px py : Nat) : Color :=
  if InRect x y width height px py ∧ t ≤ index width (px - x) (py - y)
      ∧ index width (px - x) (py - y) < t + bits.length then
    if bits.getD (index width (px - x) (py - y) - t) false then color else background
  else old px py

variable {bits : List Bool} {bit : Bool} {t cx cy : Nat} {old : Nat → Nat → Color}

theorem drawn_nil (x y width height : Nat) (color background : Color) (t : Nat)
    (old : Nat → Nat → Color) : drawn x y width height color background [] t old = old := by
  funext px py
  exact if_neg fun h => by
    have := h.2.2
    rw [List.length_nil] at this
    omega

/-- One bit is drawn into its cell, the others behind it. -/
theorem drawn_cons (hx : cx < width) (hy : cy < height) :
    drawn x y width height color background (bit :: bits) (index width cx cy) old
      = drawn x y width height color background bits (index width cx cy + 1) fun px py =>
        if px = cx + x ∧ py = cy + y then (if bit then color else background)
        else old px py := by
  funext px py
  by_cases hin : InRect x y width height px py
  · have hcell : index width (px - x) (py - y) = index width cx cy
        ↔ px = cx + x ∧ py = cy + y := by
      obtain ⟨h₁, h₂, h₃, h₄⟩ := hin
      rw [index_inj (by omega) hx]
      omega
    simp only [drawn, ← hcell]
    generalize index width (px - x) (py - y) = k
    generalize index width cx cy = s
    simp only [hin, true_and, List.length_cons]
    rcases Nat.lt_trichotomy k s with hlt | rfl | hgt
    · rw [if_neg (show ¬ (s ≤ k ∧ _) by omega), if_neg (show ¬ (s + 1 ≤ k ∧ _) by omega),
        if_neg (show ¬ k = s by omega)]
    · rw [if_pos (show k ≤ k ∧ k < k + (bits.length + 1) by omega),
        if_neg (show ¬ (k + 1 ≤ k ∧ _) by omega), if_pos rfl, Nat.sub_self,
        List.getD_cons_zero]
    · have hsucc : k - s = k - (s + 1) + 1 := by omega
      have hback : (s ≤ k ∧ k < s + (bits.length + 1))
          ↔ (s + 1 ≤ k ∧ k < s + 1 + bits.length) := by omega
      simp only [hback]
      rw [hsucc, List.getD_cons_succ, if_neg (show ¬ k = s by omega)]
  · have hcell : ¬ (px = cx + x ∧ py = cy + y) := by
      rintro ⟨rfl, rfl⟩
      exact hin ⟨by omega, by omega, by omega, by omega⟩
    rw [drawn, drawn, if_neg fun h => hin h.1, if_neg fun h => hin h.1, if_neg hcell]

/-- Behind the last cell nothing is drawn. -/
theorem drawn_end (hx : cx + 1 = width) (hy : cy + 1 = height) :
    drawn x y width height color background bits (index width cx cy + 1) old = old := by
  funext px py
  refine if_neg ?_
  rintro ⟨⟨h₁, h₂, h₃, h₄⟩, hle, -⟩
  have hlt : index width (px - x) (py - y) < index width 0 (cy + 1) :=
    index_lt_row (by omega) (by omega)
  rw [index_wrap hx] at hlt
  omega

/-- The picture of a picture. -/
theorem Shows.trans {lfb₁ : LinearFramebuffer} {old new : Nat → Nat → Color}
    (h₁ : Shows lfb lfb₁ old)
    (h₂ : Shows lfb₁ lfb' (drawn x y width height color background bits t lfb₁.pixel))
    (h : drawn x y width height color background bits t old = new) :
    Shows lfb lfb' new where
  width := h₂.width.trans h₁.width
  height := h₂.height.trans h₁.height
  pixel := by
    intro px hpx py hpy
    rw [h₂.pixel px (h₁.width.symm ▸ hpx) py (h₁.height.symm ▸ hpy), ← h, drawn, drawn,
      h₁.pixel px hpx py hpy]

/-- **THE LOOP OF `plot_glyph`.**  Its bits meet the cells of the rectangle one
    by one. -/
theorem plotBits_ok (color background : Color) (bits : List Bool) :
    ∀ {cx cy : Nat} {lfb : LinearFramebuffer}, cx < width → cy < height →
      x + width ≤ lfb.width → y + height ≤ lfb.height →
      ∃ lfb', LinearFramebuffer.plotBits x y width height color background bits cx cy lfb
          = .ok lfb'
        ∧ Shows lfb lfb' (drawn x y width height color background bits (index width cx cy)
          lfb.pixel) := by
  induction bits with
  | nil =>
      intro cx cy lfb _ _ _ _
      rw [drawn_nil]
      exact ⟨lfb, rfl, rfl, rfl, fun _ _ _ _ => rfl⟩
  | cons bit bits ih =>
      intro cx cy lfb hcx hcy hx hy
      have hw := lfb.width_lt
      have hh := lfb.height_lt
      obtain ⟨lfb₁, hplot, h₁⟩ := plot_ok (if bit then color else background)
        (show cx + x < lfb.width by omega) (show cy + y < lfb.height by omega)
      rw [LinearFramebuffer.plotBits, usize_ok (by omega), ok_bind, usize_ok (by omega),
        ok_bind, hplot, ok_bind, drawn_cons hcx hcy]
      have hx₁ : x + width ≤ lfb₁.width := h₁.width.symm ▸ hx
      have hy₁ : y + height ≤ lfb₁.height := h₁.height.symm ▸ hy
      by_cases hwrap : width ≤ cx + 1
      · rw [if_pos hwrap]
        by_cases hstop : height ≤ cy + 1
        · rw [if_pos hstop, drawn_end (by omega) (by omega)]
          exact ⟨lfb₁, rfl, h₁⟩
        · rw [if_neg hstop]
          obtain ⟨lfb', heq, h'⟩ := ih (show 0 < width by omega)
            (show cy + 1 < height by omega) hx₁ hy₁
          rw [index_wrap (show cx + 1 = width by omega)] at h'
          exact ⟨lfb', heq, h₁.trans h' rfl⟩
      · rw [if_neg hwrap]
        obtain ⟨lfb', heq, h'⟩ := ih (show cx + 1 < width by omega) hcy hx₁ hy₁
        rw [index_succ] at h'
        exact ⟨lfb', heq, h₁.trans h' rfl⟩

/-- **`plot_glyph`** draws its rectangle: bit `j * width + i` of the glyph at
    `(x + i, y + j)`, and nothing else. -/
theorem plotGlyph_ok (glyph : List Byte) (color background : Color) (hwidth : 0 < width)
    (hheight : 0 < height) (hx : x + width ≤ lfb.width) (hy : y + height ≤ lfb.height)
    (hbits : width * height ≤ 8 * glyph.length) :
    ∃ lfb', lfb.plotGlyph x y width height glyph color background = .ok (.ok (), lfb')
      ∧ Shows lfb lfb' fun px py =>
        if InRect x y width height px py then
          if glyphBit glyph (index width (px - x) (py - y)) then color else background
        else lfb.pixel px py := by
  have hw := lfb.width_lt
  have hh := lfb.height_lt
  obtain ⟨lfb', heq, hshows⟩ := plotBits_ok color background (glyphBits glyph)
    hwidth hheight hx hy
  refine ⟨lfb', ?_, hshows.width, hshows.height, fun px hpx py hpy => ?_⟩
  · rw [LinearFramebuffer.plotGlyph, usize_ok (by omega), ok_bind, if_neg (by omega),
      usize_ok (by omega), ok_bind, if_neg (by omega), heq]
    rfl
  · rw [hshows.pixel px hpx py hpy, drawn]
    by_cases hin : InRect x y width height px py
    · obtain ⟨h₁, h₂, h₃, h₄⟩ := id hin
      have hlt : index width (px - x) (py - y) < width * height :=
        index_lt (by omega) (by omega)
      have hzero : index width 0 0 = 0 := by simp [index]
      rw [hzero, length_glyphBits, if_pos ⟨hin, by omega, by omega⟩, if_pos hin,
        Nat.sub_zero, getD_glyphBits]
    · rw [if_neg fun h => hin h.1, if_neg hin]

/-- A glyph that does not fit is refused, and nothing is drawn. -/
theorem plotGlyph_refused (glyph : List Byte) (color background : Color)
    (hx : x + width < 2 ^ 64) (hy : y + height < 2 ^ 64)
    (hout : lfb.width < x + width ∨ lfb.height < y + height) :
    lfb.plotGlyph x y width height glyph color background = .ok (.error .outOfBounds, lfb) := by
  rw [LinearFramebuffer.plotGlyph, usize_ok hx, ok_bind]
  by_cases hright : lfb.width < x + width
  · rw [if_pos hright]
    rfl
  · rw [if_neg hright, usize_ok hy, ok_bind, if_pos (hout.resolve_left hright)]
    rfl

/-- **A GLYPH, EXACTLY.**  Whatever its width: it is refused if its rectangle does
    not fit; else every pixel of the rectangle shows its bit, most significant
    first, and no other pixel changes. -/
theorem plotGlyph_exact (lfb : LinearFramebuffer) (x y width height : Nat)
    (glyph : List Byte) (color background : Color) (hwidth : 1 ≤ width) (hheight : 1 ≤ height)
    (hx : x + width < 2 ^ 64) (hy : y + height < 2 ^ 64)
    (hglyph : (width * height + 7) / 8 ≤ glyph.length) :
    (lfb.width < x + width ∨ lfb.height < y + height →
        lfb.plotGlyph x y width height glyph color background
          = .ok (.error .outOfBounds, lfb))
      ∧ (x + width ≤ lfb.width → y + height ≤ lfb.height →
        ∃ lfb', lfb.plotGlyph x y width height glyph color background = .ok (.ok (), lfb')
          ∧ lfb'.width = lfb.width ∧ lfb'.height = lfb.height
          ∧ (∀ i < width, ∀ j < height, lfb'.pixel (x + i) (y + j)
            = if glyphBit glyph (j * width + i) then color else background)
          ∧ ∀ px < lfb.width, ∀ py < lfb.height, ¬ InRect x y width height px py →
            lfb'.pixel px py = lfb.pixel px py) := by
  refine ⟨plotGlyph_refused glyph color background hx hy, fun hright hbottom => ?_⟩
  obtain ⟨lfb', hplot, hshows⟩ := plotGlyph_ok glyph color background hwidth hheight hright
    hbottom (show width * height ≤ 8 * glyph.length by omega)
  refine ⟨lfb', hplot, hshows.width, hshows.height, fun i hi j hj => ?_,
    fun px hpx py hpy hout => ?_⟩
  · have hin : InRect x y width height (x + i) (y + j) :=
      ⟨by omega, by omega, by omega, by omega⟩
    rw [hshows.pixel (x + i) (by omega) (y + j) (by omega), if_pos hin,
      Nat.add_sub_cancel_left, Nat.add_sub_cancel_left, index, Nat.add_comm i]
  · rw [hshows.pixel px hpx py hpy, if_neg hout]

/-- Eight by eight pixels of one colour. -/
def sampleSquare : LinearFramebuffer where
  width := 8
  height := 8
  buffer := List.replicate 64 0#32
  length_eq := List.length_replicate
  bounded := by decide
  width_lt := by decide
  height_lt := by decide

/-- A glyph of three by five: its rows start in the middle of a byte. -/
theorem plotGlyph_exact_sample :
    ∃ lfb', sampleSquare.plotGlyph 2 1 3 5 [0b01011111#8, 0b10100000#8] 1#32 0#32
        = .ok (.ok (), lfb')
      ∧ lfb'.pixel (2 + 1) (1 + 0) = 1#32 := by
  obtain ⟨lfb', hplot, -, -, hin, -⟩ :=
    (plotGlyph_exact sampleSquare 2 1 3 5 [0b01011111#8, 0b10100000#8] 1#32 0#32 (by decide)
      (by decide) (by decide) (by decide) (by decide)).2 (by decide) (by decide)
  exact ⟨lfb', hplot, (hin 1 (by decide) 0 (by decide)).trans (if_pos (by decide))⟩

/-! ## Scrolling -/

/-- The loop of `scroll` fills `n` pixels from `start` on. -/
theorem fillFrom_ok (start n : Nat) (color : Color) (hfit : start + n ≤ lfb.buffer.length) :
    ∃ lfb', (List.range n).foldlM (fun l i => LinearFramebuffer.ptrWrite l (start + i) color) lfb
        = .ok lfb'
      ∧ lfb'.width = lfb.width ∧ lfb'.height = lfb.height
      ∧ ∀ j < lfb.buffer.length, lfb'.buffer.getD j 0#32
        = if start ≤ j ∧ j < start + n then color else lfb.buffer.getD j 0#32 := by
  refine foldlM_range
    (fun i (l : LinearFramebuffer) => l.width = lfb.width ∧ l.height = lfb.height
      ∧ ∀ j < lfb.buffer.length, l.buffer.getD j 0#32
        = if start ≤ j ∧ j < start + i then color else lfb.buffer.getD j 0#32) ?_
    ⟨rfl, rfl, fun j _ => (if_neg (by omega)).symm⟩
  rintro i hi l ⟨hw, hh, hpix⟩
  have hlt : start + i < l.buffer.length := by
    rw [l.length_eq, hw, hh, ← lfb.length_eq]
    omega
  refine ⟨_, if_pos hlt, hw, hh, fun j hj => ?_⟩
  show (l.buffer.set (start + i) color).getD j 0#32 = _
  rw [getD_set _ _ hlt, hpix j hj]
  by_cases hji : j = start + i
  · rw [if_pos hji, if_pos (by omega)]
  · rw [if_neg hji]
    congr 1
    exact propext (by omega)

/-- What `scroll` moves and what it fills make up the buffer. -/
theorem scroll_parts {layers : Nat} (hlayers : layers ≤ lfb.height) :
    layers * lfb.width + lfb.width * (lfb.height - layers) = lfb.width * lfb.height := by
  rw [Nat.mul_comm layers, ← Nat.mul_add, Nat.add_sub_cancel' hlayers]

/-- **`scroll`** moves the rows up and fills the last ones. -/
theorem scroll_ok {layers : Nat} (color : Color) (hlayers : layers ≤ lfb.height) :
    ∃ lfb', lfb.scroll layers color = .ok lfb'
      ∧ Shows lfb lfb' fun x y =>
        if y + layers < lfb.height then lfb.pixel x (y + layers) else color := by
  have hsize := lfb.bounded
  have hlen := lfb.length_eq
  have hmoved := scroll_parts hlayers
  generalize hm : layers * lfb.width = moved at hmoved
  generalize hk : lfb.width * (lfb.height - layers) = kept at hmoved
  have hcopy : lfb.ptrCopy moved 0 kept
      = .ok (lfb.write (copy lfb.buffer moved 0 kept) (length_copy _ _ _ _)) :=
    if_pos ⟨by omega, by omega⟩
  have hfit : kept + moved ≤ (copy lfb.buffer moved 0 kept).length := by
    rw [length_copy]
    omega
  obtain ⟨lfb', hloop, hw, hh, hpixels⟩ := fillFrom_ok kept moved color
    (show kept + moved ≤ (lfb.write _ (length_copy _ _ _ _)).buffer.length from hfit)
  refine ⟨lfb', ?_, hw, hh, fun x hx y hy => ?_⟩
  · rw [LinearFramebuffer.scroll, hm, usize_ok (by omega), ok_bind, usizeSub_ok hlayers,
      ok_bind, hk, usize_ok (by omega), ok_bind, hcopy, ok_bind]
    exact hloop
  · have hindex := LinearFramebuffer.index_lt_length hx hy
    have hcell := hpixels (index lfb.width x y)
      (show _ < (copy lfb.buffer moved 0 kept).length by rwa [length_copy])
    rw [LinearFramebuffer.pixel, show lfb'.width = lfb.width from hw, hcell]
    show (if _ then color else (copy lfb.buffer moved 0 kept).getD _ 0#32) = _
    rw [getD_copy _ (by omega) hindex]
    by_cases hup : y + layers < lfb.height
    · have hlt : index lfb.width x y < kept := hk ▸ index_lt hx (by omega)
      rw [if_neg (by omega), if_pos (by omega), if_pos hup, LinearFramebuffer.pixel,
        index_add_row, hm]
      congr 1
      omega
    · have hge : kept ≤ index lfb.width x y := by
        have hrow : lfb.width * (lfb.height - layers) ≤ lfb.width * y :=
          Nat.mul_le_mul_left _ (by omega)
        rw [index, Nat.mul_comm y]
        omega
      rw [if_pos (by omega), if_neg hup]

/-- **SCROLLING, EXACTLY.**  For every number of lines up to the height, none and
    all of them included: the copy reads and writes in the buffer, and so does
    the loop that fills; the call returns, every pixel shows the one `layers`
    lines further down, and the lines without one show the colour. -/
theorem scroll_exact (lfb : LinearFramebuffer) (layers : Nat) (color : Color)
    (hlayers : layers ≤ lfb.height) :
    (∀ i < lfb.width * (lfb.height - layers),
        layers * lfb.width + i < lfb.buffer.length ∧ i < lfb.buffer.length)
      ∧ (∀ i < layers * lfb.width,
        lfb.width * (lfb.height - layers) + i < lfb.buffer.length)
      ∧ ∃ lfb', lfb.scroll layers color = .ok lfb'
        ∧ lfb'.width = lfb.width ∧ lfb'.height = lfb.height
        ∧ ∀ x < lfb.width, ∀ y < lfb.height, lfb'.pixel x y
          = if y + layers < lfb.height then lfb.pixel x (y + layers) else color := by
  have hparts := scroll_parts hlayers
  rw [← lfb.length_eq] at hparts
  obtain ⟨lfb', hscroll, hshows⟩ := scroll_ok color hlayers
  refine ⟨fun i hi => ⟨by omega, by omega⟩, fun i hi => by omega, lfb', hscroll, ?_⟩
  exact ⟨hshows.width, hshows.height, hshows.pixel⟩

/-- The whole height at once: nothing is left to move. -/
theorem scroll_exact_sample :
    ∃ lfb', sampleSquare.scroll 8 7#32 = .ok lfb' ∧ ∀ x < 8, ∀ y < 8, lfb'.pixel x y = 7#32 := by
  obtain ⟨-, -, lfb', hscroll, -, -, hpixel⟩ := scroll_exact sampleSquare 8 7#32 (by decide)
  refine ⟨lfb', hscroll, fun x hx y hy => (hpixel x hx y hy).trans (if_neg ?_)⟩
  exact Nat.not_lt.mpr (Nat.le_add_left 8 y)

end KermolFramebuffer
