import Kermol.ByteMemoryProofs
import Kermol.FramebufferProofs

/-! # The display in memory

    `LinearFramebuffer::new` makes a slice of `width * height` pixels at the address
    that the boot protocol gives.  The protocol also gives a pitch: row `y` of
    the display starts `y * pitch` bytes behind the address, and rows may be
    padded.  The constructor does not read it, and `plot` and `scroll` count
    `width` pixels for every row.

    `onDisplay` runs a method on the slice and leaves its pixels in memory.
    `display_iff` says for which descriptors and which calls the bytes touched
    are those of the display. -/

namespace KermolDisplayMemory

open RustEffect ByteBits Raster ByteMemory KermolFramebuffer

/-! ## The code -/

/-- The four bytes of a pixel, the least significant one first. -/
def encodeColor (color : Color) : List Byte :=
  [BitVec.ofNat 8 color.toNat, BitVec.ofNat 8 (color.toNat / 256),
    BitVec.ofNat 8 (color.toNat / 65536), BitVec.ofNat 8 (color.toNat / 16777216)]

def decodeColor (bytes : List Byte) : Color :=
  BitVec.ofNat 32 ((bytes.getD 0 0#8).toNat + 256 * (bytes.getD 1 0#8).toNat
    + 65536 * (bytes.getD 2 0#8).toNat + 16777216 * (bytes.getD 3 0#8).toNat)

theorem decodeColor_encodeColor (color : Color) : decodeColor (encodeColor color) = color := by
  apply BitVec.eq_of_toNat_eq
  have hlt := color.isLt
  simp [decodeColor, encodeColor]
  omega

theorem encodeColor_decodeColor (bytes : List Byte) (hlen : bytes.length = 4) :
    encodeColor (decodeColor bytes) = bytes := by
  match bytes, hlen with
  | [b₀, b₁, b₂, b₃], _ =>
      have h₀ := b₀.isLt
      have h₁ := b₁.isLt
      have h₂ := b₂.isLt
      have h₃ := b₃.isLt
      have hbyte : ∀ {b : Byte} {n : Nat}, n % 256 = b.toNat → BitVec.ofNat 8 n = b :=
        fun h => BitVec.eq_of_toNat_eq (by rw [BitVec.toNat_ofNat]; exact h)
      simp only [encodeColor, decodeColor, BitVec.toNat_ofNat, List.getD_cons_zero,
        List.getD_cons_succ]
      rw [hbyte (b := b₀) (by omega), hbyte (b := b₁) (by omega), hbyte (b := b₂) (by omega),
        hbyte (b := b₃) (by omega)]

/-- `u32` -/
instance : Layout Color where
  size := 4
  size_lt := by decide
  encode := encodeColor
  decode := decodeColor
  length_encode := fun _ => rfl
  decode_encode := decodeColor_encodeColor

instance : Plain Color := ⟨encodeColor_decodeColor⟩

/-- `Framebuffer`, what the boot protocol says about a display: a row of `width`
    pixels takes `pitch` bytes. -/
structure Framebuffer where
  address : Nat
  width : Nat
  height : Nat
  pitch : Nat
  bpp : Nat
  width_lt : width < 2 ^ 64
  height_lt : height < 2 ^ 64
deriving Repr

/-- `LinearFramebuffer::new`.  No slice has more than `isize::MAX` bytes; the model
    stops there. -/
def new (framebuffer : Framebuffer) (mem : Memory) :
    Panics (Except LinearFramebufferError LinearFramebuffer) :=
  if framebuffer.bpp ≠ 32 then return .error .unsupportedPixelDepth
  else if h : framebuffer.width * framebuffer.height < 2 ^ 61 then
    return .ok {
      width := framebuffer.width
      height := framebuffer.height
      buffer := sliceRead mem framebuffer.address (framebuffer.width * framebuffer.height)
      length_eq := length_sliceRead _ _ _
      bounded := h
      width_lt := framebuffer.width_lt
      height_lt := framebuffer.height_lt }
  else .error .overflow

/-- A method on the framebuffer of a descriptor.  The slice borrows memory, so what
    the method leaves in it stands there. -/
def onDisplay (framebuffer : Framebuffer)
    (method : LinearFramebuffer → Panics LinearFramebuffer) (mem : Memory) :
    Panics (Except LinearFramebufferError Memory) := do
  match ← new framebuffer mem with
  | .error e => return .error e
  | .ok lfb => do
      let lfb ← method lfb
      return .ok (sliceWrite mem framebuffer.address lfb.buffer)

/-! ## One lemma for each method -/

variable {fb : Framebuffer} {mem : Memory} {x y b layers : Nat}

/-- The descriptors that `new` accepts. -/
def Accepted (fb : Framebuffer) : Prop := fb.bpp = 32 ∧ fb.width * fb.height < 2 ^ 61

instance (fb : Framebuffer) : Decidable (Accepted fb) := inferInstanceAs (Decidable (_ ∧ _))

/-- The pixels in memory, as a framebuffer. -/
def view (fb : Framebuffer) (h : Accepted fb) (mem : Memory) : LinearFramebuffer where
  width := fb.width
  height := fb.height
  buffer := sliceRead mem fb.address (fb.width * fb.height)
  length_eq := length_sliceRead _ _ _
  bounded := h.2
  width_lt := fb.width_lt
  height_lt := fb.height_lt

theorem new_ok (h : Accepted fb) (mem : Memory) : new fb mem = .ok (.ok (view fb h mem)) := by
  rw [new, if_neg (not_not.mpr h.1), dif_pos h.2]
  rfl

theorem new_ok_iff : (∃ lfb, new fb mem = .ok (.ok lfb)) ↔ Accepted fb := by
  constructor
  · rintro ⟨lfb, h⟩
    rw [new] at h
    split at h
    · cases h
    · next hbpp =>
        split at h
        · next hsize => exact ⟨not_not.mp hbpp, hsize⟩
        · cases h
  · exact fun h => ⟨_, new_ok h mem⟩

/-- Byte `b` of pixel `(x, y)` of the slice: rows of pixels, each a row of bytes. -/
def sliceByte (fb : Framebuffer) (x y b : Nat) : Nat :=
  fb.address + index 4 b (index fb.width x y)

/-- The view shows what is in memory. -/
theorem view_byte (h : Accepted fb) (hx : x < fb.width) (hy : y < fb.height) (hb : b < 4) :
    (encodeColor ((view fb h mem).pixel x y)).getD b 0#8 = mem (sliceByte fb x y b) := by
  have hlt : index (view fb h mem).width x y < (view fb h mem).buffer.length :=
    LinearFramebuffer.index_lt_length hx hy
  have hcell : (view fb h mem).pixel x y
      = ptrRead mem (fb.address + index fb.width x y * Layout.size Color) := by
    rw [LinearFramebuffer.pixel, List.getD_eq_getElem _ _ hlt]
    exact getElem_sliceRead hlt
  rw [hcell]
  refine (getD_encode_ptrRead mem _ (show b < Layout.size Color from hb)).trans ?_
  rw [sliceByte, index.eq_def 4, Nat.add_assoc, Nat.add_comm b]
  rfl

/-- What a framebuffer of this size leaves in memory. -/
theorem written_byte {lfb : LinearFramebuffer} (hwidth : lfb.width = fb.width)
    (hheight : lfb.height = fb.height) (hx : x < fb.width) (hy : y < fb.height) (hb : b < 4) :
    sliceWrite mem fb.address lfb.buffer (sliceByte fb x y b)
      = (encodeColor (lfb.pixel x y)).getD b 0#8 := by
  rw [← hwidth] at hx
  rw [← hheight] at hy
  have hlt := LinearFramebuffer.index_lt_length hx hy
  have hbyte := sliceWrite_byte (p := fb.address) mem hlt (show b < Layout.size Color from hb)
  rw [sliceByte, ← hwidth, LinearFramebuffer.pixel, List.getD_eq_getElem _ _ hlt]
  exact hbyte

/-- **`plot`, IN MEMORY.**  It writes four bytes, `x + y * width` pixels behind the
    address. -/
theorem onDisplay_plot (h : Accepted fb) (color : Color) (mem : Memory) (hx : x < fb.width)
    (hy : y < fb.height) :
    onDisplay fb (fun lfb => lfb.plot x y color) mem
      = .ok (.ok (ptrWrite mem (fb.address + index fb.width x y * 4) color)) := by
  have hlt : index fb.width x y < fb.width * fb.height := index_lt hx hy
  have hplot : (view fb h mem).plot x y color = _ := plot_eq color hx hy
  rw [onDisplay, new_ok h, ok_bind]
  dsimp only
  rw [hplot, ok_bind]
  exact congrArg (fun mem' => Except.ok (Except.ok mem')) (sliceWrite_set mem hlt color)

/-- **`scroll`, IN MEMORY.**  The bytes of a pixel of the slice are those of the pixel
    `layers` rows further down, and no byte outside the slice changes. -/
theorem onDisplay_scroll (h : Accepted fb) (color : Color) (mem : Memory)
    (hlayers : layers ≤ fb.height) :
    ∃ mem', onDisplay fb (fun lfb => lfb.scroll layers color) mem = .ok (.ok mem')
      ∧ (∀ x < fb.width, ∀ y < fb.height - layers, ∀ b < 4,
        mem' (sliceByte fb x y b) = mem (sliceByte fb x (y + layers) b))
      ∧ ∀ q, ¬ InBlock fb.address (4 * (fb.width * fb.height)) q → mem' q = mem q := by
  obtain ⟨lfb', hscroll, hshows⟩ :=
    scroll_ok color (show layers ≤ (view fb h mem).height from hlayers)
  refine ⟨sliceWrite mem fb.address lfb'.buffer, ?_, fun x hx y hy b hb => ?_, fun q hq => ?_⟩
  · rw [onDisplay, new_ok h, ok_bind]
    dsimp only
    rw [hscroll, ok_bind]
    rfl
  · have hbelow : y < fb.height := by omega
    rw [written_byte hshows.width hshows.height hx hbelow hb, hshows.pixel x hx y hbelow,
      if_pos (show y + layers < (view fb h mem).height by show _ < fb.height; omega),
      view_byte h hx (by omega) hb]
  · have hlen : lfb'.buffer.length = fb.width * fb.height := by
      rw [lfb'.length_eq, hshows.width, hshows.height]
      rfl
    refine sliceWrite_outside mem ?_
    rw [hlen]
    exact hq

/-! ## Where the display shows them -/

/-- The address of a byte of row `y` of the display. -/
def rowByte (fb : Framebuffer) (y b : Nat) : Nat := fb.address + y * fb.pitch + b

/-- `plot` writes the four bytes of the pixel on the display, and nothing else. -/
def PlotLands (fb : Framebuffer) (x y : Nat) : Prop :=
  ∀ color mem, onDisplay fb (fun lfb => lfb.plot x y color) mem
    = .ok (.ok (ptrWrite mem (rowByte fb y (4 * x)) color))

/-- `scroll` returns, and every row of the display shows the row `layers` further
    down. -/
def ScrollLands (fb : Framebuffer) (layers : Nat) : Prop :=
  ∀ color mem, ∃ mem', onDisplay fb (fun lfb => lfb.scroll layers color) mem = .ok (.ok mem')
    ∧ ∀ y < fb.height - layers, ∀ b < 4 * fb.width,
      mem' (rowByte fb y b) = mem (rowByte fb (y + layers) b)

/-- `n` rows of the slice take as many bytes as `n` rows of the display. -/
theorem rows_eq_iff (fb : Framebuffer) (n : Nat) : n * fb.width * 4 = n * fb.pitch
    ↔ n = 0 ∨ fb.pitch = 4 * fb.width := by
  constructor
  · intro heq
    by_cases hn : n = 0
    · exact Or.inl hn
    · right
      rw [Nat.mul_assoc, Nat.mul_comm fb.width] at heq
      exact (Nat.eq_of_mul_eq_mul_left (Nat.pos_of_ne_zero hn) heq).symm
  · rintro (rfl | hpitch)
    · rw [Nat.zero_mul, Nat.zero_mul, Nat.zero_mul]
    · rw [hpitch, Nat.mul_assoc, Nat.mul_comm fb.width]

/-- Two places that look the same after a white pixel on black are one. -/
theorem ptrWrite_place {p p' : Nat}
    (h : ptrWrite (fun _ => 0#8) p 0xFFFFFFFF#32 = ptrWrite (fun _ => 0#8) p' 0xFFFFFFFF#32) :
    p = p' := by
  have hfirst : ∀ p : Nat, ptrWrite (fun _ => 0#8) p 0xFFFFFFFF#32 p = 0xFF#8 := fun p =>
    (ptrWrite_byte (b := 0) _ p 0xFFFFFFFF#32 (show 0 < 4 by decide)).trans (by decide)
  have hbefore : ∀ {p q : Nat}, q < p → ptrWrite (fun _ => 0#8) p 0xFFFFFFFF#32 q = 0#8 :=
    fun hlt => ptrWrite_outside _ _ fun hin => by
      have := hin.1
      omega
  rcases Nat.lt_trichotomy p p' with hlt | heq | hgt
  · have hcell := congrFun h p
    rw [hfirst, hbefore hlt] at hcell
    exact absurd hcell (by decide)
  · exact heq
  · have hcell := congrFun h p'
    rw [hfirst, hbefore hgt] at hcell
    exact absurd hcell (by decide)

theorem plotLands_iff (h : Accepted fb) (hx : x < fb.width) (hy : y < fb.height) :
    PlotLands fb x y ↔ y = 0 ∨ fb.pitch = 4 * fb.width := by
  have hplace : fb.address + index fb.width x y * 4 = rowByte fb y (4 * x)
      ↔ y * fb.width * 4 = y * fb.pitch := by
    rw [index, rowByte]
    omega
  rw [← rows_eq_iff, ← hplace]
  constructor
  · intro hlands
    have hwhite := hlands 0xFFFFFFFF#32 fun _ => 0#8
    rw [onDisplay_plot h _ _ hx hy] at hwhite
    exact ptrWrite_place (Except.ok.inj (Except.ok.inj hwhite))
  · intro heq color mem
    rw [onDisplay_plot h color mem hx hy, heq]

/-- A byte of a row of the display, when its rows are packed. -/
theorem rowByte_packed (hpitch : fb.pitch = 4 * fb.width) (y b : Nat) :
    rowByte fb y b = sliceByte fb (b / 4) y (b % 4) := by
  have hrow := (rows_eq_iff fb y).mpr (Or.inr hpitch)
  rw [rowByte, sliceByte, index, index, Nat.add_mul]
  omega

/-- Without layers to move, the slice is copied onto itself, whatever the rows of the
    display are. -/
theorem scrollLands_zero (h : Accepted fb) : ScrollLands fb 0 := by
  intro color mem
  obtain ⟨mem', hcall, hmoved, hkept⟩ := onDisplay_scroll h color mem (Nat.zero_le _)
  refine ⟨mem', hcall, fun y _ b hb => ?_⟩
  rw [Nat.add_zero]
  by_cases hin : InBlock fb.address (4 * (fb.width * fb.height)) (rowByte fb y b)
  · obtain ⟨i, hi, b', hb', hq⟩ := inBlock_slice (T := Color) hin
    have hpos : 0 < fb.width := by omega
    have hcell : rowByte fb y b = sliceByte fb (i % fb.width) (i / fb.width) b' := by
      rw [hq, sliceByte, index.eq_def fb.width, Nat.mod_add_div']
      rfl
    rw [hcell]
    exact hmoved _ (Nat.mod_lt _ hpos) _ (Nat.div_lt_of_lt_mul hi) b' hb'
  · exact hkept _ hin

/-- When a row moves to the top of the display, the slice has it where the display
    does. -/
theorem scrollLands_place (h : Accepted fb) (hwidth : 0 < fb.width)
    (hlayers : layers < fb.height) (hlands : ScrollLands fb layers) :
    sliceByte fb 0 layers 0 = rowByte fb layers 0 := by
  -- one bright byte, where the display has the row
  obtain ⟨mem', hcall, hrows⟩ := hlands 0#32 fun q =>
    if q = rowByte fb layers 0 then 1#8 else 0#8
  obtain ⟨mem₂, hcall₂, hmoved, -⟩ := onDisplay_scroll h 0#32
    (fun q => if q = rowByte fb layers 0 then 1#8 else 0#8) (Nat.le_of_lt hlayers)
  cases hcall.symm.trans hcall₂
  have htop := hrows 0 (by omega) 0 (by omega)
  have hslice := hmoved 0 hwidth 0 (by omega) 0 (by omega)
  have hfirst : sliceByte fb 0 0 0 = rowByte fb 0 0 := by
    rw [sliceByte, rowByte, index, index]
    omega
  rw [Nat.zero_add, hfirst, htop, Nat.zero_add, if_pos rfl] at hslice
  by_cases hsame : sliceByte fb 0 layers 0 = rowByte fb layers 0
  · exact hsame
  · rw [if_neg hsame] at hslice
    exact absurd hslice (by decide)

theorem scrollLands_iff (h : Accepted fb) (hlayers : layers ≤ fb.height) :
    ScrollLands fb layers
      ↔ layers = 0 ∨ layers = fb.height ∨ fb.width = 0 ∨ fb.pitch = 4 * fb.width := by
  constructor
  · intro hlands
    by_cases hwidth : fb.width = 0
    · exact Or.inr (Or.inr (Or.inl hwidth))
    by_cases hall : layers = fb.height
    · exact Or.inr (Or.inl hall)
    have hplace := scrollLands_place h (by omega) (by omega) hlands
    rw [sliceByte, rowByte, index, index] at hplace
    rcases (rows_eq_iff fb layers).mp (by omega) with hzero | hpitch
    · exact Or.inl hzero
    · exact Or.inr (Or.inr (Or.inr hpitch))
  · intro hcond color mem
    obtain ⟨mem', hcall, hmoved, -⟩ := onDisplay_scroll h color mem hlayers
    rcases hcond with rfl | hall | hwidth | hpitch
    · exact scrollLands_zero h color mem
    · exact ⟨mem', hcall, fun y hy => by omega⟩
    · exact ⟨mem', hcall, fun y _ b hb => by omega⟩
    · refine ⟨mem', hcall, fun y hy b hb => ?_⟩
      rw [rowByte_packed hpitch, rowByte_packed hpitch]
      exact hmoved _ (Nat.div_lt_of_lt_mul hb) y hy _ (Nat.mod_lt _ (by decide))

/-- **PIXELS ON THE DISPLAY, EXACTLY.**  For every descriptor that `new` accepts: a
    pixel lands where the display shows it if and only if it is in the first row
    or the rows are packed; and rows scroll as the display shows them if and only
    if none moves or the rows are packed. -/
theorem display_iff (fb : Framebuffer) (mem : Memory) (lfb : LinearFramebuffer)
    (hnew : new fb mem = .ok (.ok lfb)) :
    (∀ x < fb.width, ∀ y < fb.height,
        (PlotLands fb x y ↔ y = 0 ∨ fb.pitch = 4 * fb.width))
      ∧ ∀ layers ≤ fb.height, (ScrollLands fb layers
        ↔ layers = 0 ∨ layers = fb.height ∨ fb.width = 0 ∨ fb.pitch = 4 * fb.width) := by
  have h : Accepted fb := new_ok_iff.mp ⟨lfb, hnew⟩
  exact ⟨fun x hx y hy => plotLands_iff h hx hy, fun layers hlayers => scrollLands_iff h hlayers⟩

/-- Two rows of two pixels. -/
def sampleDisplay (pitch : Nat) : Framebuffer where
  address := 0xFFFF8000FD000000
  width := 2
  height := 2
  pitch := pitch
  bpp := 32
  width_lt := by decide
  height_lt := by decide

theorem display_iff_sample :
    PlotLands (sampleDisplay 8) 1 1 ∧ ScrollLands (sampleDisplay 8) 1 := by
  have h : Accepted (sampleDisplay 8) := by decide
  obtain ⟨hplot, hscroll⟩ := display_iff (sampleDisplay 8) (fun _ => 0#8) _ (new_ok h _)
  exact ⟨(hplot 1 (by decide) 1 (by decide)).mpr (Or.inr rfl),
    (hscroll 1 (by decide)).mpr (by decide)⟩

/-- With four bytes of padding behind each row, a pixel of the second row is written
    to the padding of the first. -/
theorem padded_row_is_missed :
    (∃ lfb, new (sampleDisplay 12) (fun _ => 0#8) = .ok (.ok lfb))
      ∧ 4 * (sampleDisplay 12).width ≤ (sampleDisplay 12).pitch
      ∧ onDisplay (sampleDisplay 12) (fun lfb => lfb.plot 0 1 7#32) (fun _ => 0#8)
        = .ok (.ok (ptrWrite (fun _ => 0#8) (rowByte (sampleDisplay 12) 0 8) 7#32))
      ∧ ¬ PlotLands (sampleDisplay 12) 0 1 ∧ ¬ ScrollLands (sampleDisplay 12) 1 := by
  have h : Accepted (sampleDisplay 12) := by decide
  refine ⟨⟨_, new_ok h _⟩, by decide, onDisplay_plot h 7#32 _ (by decide) (by decide), ?_, ?_⟩
  · rw [plotLands_iff h (by decide) (by decide)]
    decide
  · rw [scrollLands_iff h (by decide)]
    decide

end KermolDisplayMemory
