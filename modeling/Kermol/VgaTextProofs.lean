import Kermol.VgaFontProofs
import Kermol.TerminalProofs

/-! # The text console

    `VGAWriter` writes characters into a framebuffer, cell by cell.  The cells
    are eight by sixteen pixels; what the width and the height leave over is
    never drawn to, except that scrolling moves it.

    One lemma for each method says what it does to the cursor and to the
    picture.  From them follow two results over whole runs: the cursor stays in
    the grid and nothing panics (`writer_stays_in_grid`), and on a background
    of one colour the pixels are at every time those of a plain terminal
    (`console_refines_terminal`).

    Two things the console does not do for every input: scrolling leaves the
    strip below the last row in the text (`scroll_text_iff`), and a character is
    cut to its low byte before its glyph is looked up (`unknown_iff`). -/

namespace KermolVgaText

open RustEffect ByteBits Raster KermolFramebuffer KermolVgaFont TextTerminal

/-! ## The code -/

/-- `get_text_buffer_dimensions` -/
def getTextBufferDimensions (lfb : LinearFramebuffer) : Nat × Nat :=
  (lfb.width / VGA_FONT_WIDTH, lfb.height / VGA_FONT_HEIGHT)

/-- `put_char` -/
def putChar (lfb : LinearFramebuffer) (column row : Nat) (color backgroundColor : Color)
    (char : Byte) : Panics LinearFramebuffer := do
  let x ← usize (column * VGA_FONT_WIDTH)
  let y ← usize (row * VGA_FONT_HEIGHT)
  match ← lfb.plotGlyph x y VGA_FONT_WIDTH VGA_FONT_HEIGHT (getCharGlyph char) color
      backgroundColor with
  | (.error _, _) => .error .unwrapFailed
  | (.ok (), lfb) => return lfb

/-- `scroll` -/
def scroll (lfb : LinearFramebuffer) (rows : Nat) (background : Color) :
    Panics LinearFramebuffer := do
  let layers ← usize (rows * VGA_FONT_HEIGHT)
  lfb.scroll layers background

/-- `TAB_SIZE` -/
def TAB_SIZE : Nat := 4

/-- `c as u8` -/
def asByte (c : Char) : Byte := BitVec.ofNat 8 c.toNat

/-- `VGAWriter` -/
structure VGAWriter where
  lfb : LinearFramebuffer
  column : Nat
  row : Nat
  defaultText : Color
  defaultBackground : Color
  scrolling : Bool
deriving DecidableEq, Repr

namespace VGAWriter

/-- `VGAWriter::new` -/
def new (lfb : LinearFramebuffer) (scrolling : Bool)
    (defaultText defaultBackground : Color) : VGAWriter where
  lfb := lfb
  column := 0
  row := 0
  defaultText := defaultText
  defaultBackground := defaultBackground
  scrolling := scrolling

/-- `new_line` -/
def newLine (self : VGAWriter) : Panics VGAWriter := do
  let last ← usizeSub (getTextBufferDimensions self.lfb).2 1
  if last ≤ self.row then
    if self.scrolling then do
      let lfb ← scroll self.lfb 1 self.defaultBackground
      return { self with lfb := lfb, column := 0 }
    else return { self with column := 0, row := 0 }
  else do
    let row ← usize (self.row + 1)
    return { self with column := 0, row := row }

/-- The last arm of `write_char`. -/
def drawChar (self : VGAWriter) (c : Char) : Panics VGAWriter := do
  let lfb ← putChar self.lfb self.column self.row self.defaultText self.defaultBackground
    (asByte c)
  let column ← usize (self.column + 1)
  return { self with lfb := lfb, column := column }

/-- The check at the end of `write_char`. -/
def wrap (self : VGAWriter) : Panics VGAWriter :=
  if (getTextBufferDimensions self.lfb).1 ≤ self.column then self.newLine else return self

/-- `write_char` of a character that is neither a tab nor a line feed. -/
def writePlain (self : VGAWriter) (c : Char) : Panics VGAWriter := do
  let self ← self.drawChar c
  self.wrap

/-- `write_char`.  A tab writes spaces, for which the call takes the last arm. -/
def writeChar (self : VGAWriter) (c : Char) : Panics VGAWriter :=
  if c = '\t' then do
    let self ← (List.range TAB_SIZE).foldlM (fun self _ => self.writePlain ' ') self
    self.wrap
  else if c = '\n' then do
    let self ← self.newLine
    self.wrap
  else self.writePlain c

/-- `write_string` -/
def writeString (self : VGAWriter) (string : String) : Panics VGAWriter :=
  string.toList.foldlM writeChar self

/-- `set_position` -/
def setPosition (self : VGAWriter) (row column : Nat) : VGAWriter :=
  { self with row := row, column := column }

end VGAWriter

/-- What is printed, and changes of `default_text`. -/
inductive TextOp where
  | writeChar (c : Char)
  | writeString (string : String)
  | setText (color : Color)
deriving DecidableEq, Repr

/-- Everything a user of the writer can do. -/
inductive WriterOp where
  | text (op : TextOp)
  | setBackground (color : Color)
  | setPosition (row column : Nat)
deriving DecidableEq, Repr

/-- Perform a text operation. -/
def TextOp.perform (self : VGAWriter) : TextOp → Panics VGAWriter
  | .writeChar c => self.writeChar c
  | .writeString string => self.writeString string
  | .setText color => return { self with defaultText := color }

/-- Perform an operation. -/
def WriterOp.perform (self : VGAWriter) : WriterOp → Panics VGAWriter
  | .text op => op.perform self
  | .setBackground color => return { self with defaultBackground := color }
  | .setPosition row column => return self.setPosition row column

/-! ## One lemma for each method -/

/-- The number of text columns and rows. -/
def columns (lfb : LinearFramebuffer) : Nat := lfb.width / VGA_FONT_WIDTH

def rows (lfb : LinearFramebuffer) : Nat := lfb.height / VGA_FONT_HEIGHT

variable {lfb lfb' : LinearFramebuffer} {w w' : VGAWriter} {column row : Nat}

/-- What a glyph shows in its cell. -/
def drawGlyph (char : Byte) (color background : Color) (i j : Nat) : Color :=
  if glyphPixel char i j then color else background

/-- The rectangle of a cell, by quotients. -/
theorem inRect_cell_iff {x y : Nat} :
    InRect (column * VGA_FONT_WIDTH) (row * VGA_FONT_HEIGHT) VGA_FONT_WIDTH VGA_FONT_HEIGHT x y
      ↔ x / VGA_FONT_WIDTH = column ∧ y / VGA_FONT_HEIGHT = row := by
  rw [InRect, VGA_FONT_WIDTH, VGA_FONT_HEIGHT]
  omega

/-- The place in a cell, by remainders. -/
theorem cell_offset {x y : Nat}
    (h : x / VGA_FONT_WIDTH = column ∧ y / VGA_FONT_HEIGHT = row) :
    x - column * VGA_FONT_WIDTH = x % VGA_FONT_WIDTH
      ∧ y - row * VGA_FONT_HEIGHT = y % VGA_FONT_HEIGHT := by
  rw [VGA_FONT_WIDTH, VGA_FONT_HEIGHT] at *
  omega

/-- **`put_char`** draws one cell. -/
theorem putChar_ok (color background : Color) (char : Byte) (hcolumn : column < columns lfb)
    (hrow : row < rows lfb) :
    ∃ lfb', putChar lfb column row color background char = .ok lfb'
      ∧ Shows lfb lfb' fun x y =>
        if x / VGA_FONT_WIDTH = column ∧ y / VGA_FONT_HEIGHT = row then
          drawGlyph char color background (x % VGA_FONT_WIDTH) (y % VGA_FONT_HEIGHT)
        else lfb.pixel x y := by
  have hw := lfb.width_lt
  have hh := lfb.height_lt
  rw [columns, VGA_FONT_WIDTH] at hcolumn
  rw [rows, VGA_FONT_HEIGHT] at hrow
  obtain ⟨lfb', hglyph, hshows⟩ := plotGlyph_ok (getCharGlyph char) color background
    (show 0 < VGA_FONT_WIDTH by decide) (show 0 < VGA_FONT_HEIGHT by decide)
    (show column * VGA_FONT_WIDTH + VGA_FONT_WIDTH ≤ lfb.width by
      rw [VGA_FONT_WIDTH]
      omega)
    (show row * VGA_FONT_HEIGHT + VGA_FONT_HEIGHT ≤ lfb.height by
      rw [VGA_FONT_HEIGHT]
      omega)
    (by rw [length_getCharGlyph, VGA_FONT_WIDTH])
  refine ⟨lfb', ?_, hshows.width, hshows.height, fun x hx y hy => ?_⟩
  · rw [putChar, usize_ok (by rw [VGA_FONT_WIDTH]; omega), ok_bind,
      usize_ok (by rw [VGA_FONT_HEIGHT]; omega), ok_bind, hglyph, ok_bind]
    rfl
  · rw [hshows.pixel x hx y hy]
    by_cases hcell : x / VGA_FONT_WIDTH = column ∧ y / VGA_FONT_HEIGHT = row
    · obtain ⟨hi, hj⟩ := cell_offset hcell
      rw [if_pos (inRect_cell_iff.mpr hcell), if_pos hcell, hi, hj,
        glyphBit_index _ (Nat.mod_lt _ (by decide)), drawGlyph]
    · rw [if_neg (mt inRect_cell_iff.mp hcell), if_neg hcell]

/-- `scroll` by text rows. -/
theorem scrollRows_ok {n : Nat} (background : Color) (hrows : n ≤ rows lfb) :
    ∃ lfb', scroll lfb n background = .ok lfb'
      ∧ Shows lfb lfb' fun x y =>
        if y + n * VGA_FONT_HEIGHT < lfb.height then lfb.pixel x (y + n * VGA_FONT_HEIGHT)
        else background := by
  have hheight : n * VGA_FONT_HEIGHT ≤ lfb.height := (Nat.le_div_iff_mul_le (by decide)).mp hrows
  have hlt := lfb.height_lt
  obtain ⟨lfb', hscroll, hshows⟩ := scroll_ok background hheight
  refine ⟨lfb', ?_, hshows⟩
  rw [scroll, usize_ok (by omega), ok_bind]
  exact hscroll

/-- `scroll` by one text row. -/
theorem scrollRow_ok (background : Color) (hrows : 0 < rows lfb) :
    ∃ lfb', scroll lfb 1 background = .ok lfb'
      ∧ Shows lfb lfb' fun x y =>
        if y + VGA_FONT_HEIGHT < lfb.height then lfb.pixel x (y + VGA_FONT_HEIGHT)
        else background := by
  simpa only [Nat.one_mul] using scrollRows_ok background hrows

/-- A method moved the cursor to a place and left a picture; the colours and the
    mode are as they were. -/
structure Step (w w' : VGAWriter) (column row : Nat) (picture : Nat → Nat → Color) :
    Prop where
  text : w'.defaultText = w.defaultText
  background : w'.defaultBackground = w.defaultBackground
  scrolling : w'.scrolling = w.scrolling
  column : w'.column = column
  row : w'.row = row
  shows : Shows w.lfb w'.lfb picture

/-- The row of the next line. -/
def rowBelow (w : VGAWriter) : Nat := nextRow (rows w.lfb) w.scrolling w.row

/-- The picture of the next line. -/
def pictureBelow (w : VGAWriter) (x y : Nat) : Color :=
  if w.row + 1 < rows w.lfb then w.lfb.pixel x y
  else if w.scrolling then
    if y + VGA_FONT_HEIGHT < w.lfb.height then w.lfb.pixel x (y + VGA_FONT_HEIGHT)
    else w.defaultBackground
  else w.lfb.pixel x y

theorem rows_lt (lfb : LinearFramebuffer) : rows lfb < 2 ^ 64 :=
  Nat.lt_of_le_of_lt (Nat.div_le_self _ _) lfb.height_lt

theorem columns_lt (lfb : LinearFramebuffer) : columns lfb < 2 ^ 64 :=
  Nat.lt_of_le_of_lt (Nat.div_le_self _ _) lfb.width_lt

/-- **`new_line`**, wherever in its row the cursor is. -/
theorem newLine_ok (hrow : w.row < rows w.lfb) :
    ∃ w', w.newLine = .ok w' ∧ Step w w' 0 (rowBelow w) (pictureBelow w) := by
  have hsub : usizeSub (getTextBufferDimensions w.lfb).2 1 = .ok (rows w.lfb - 1) :=
    usizeSub_ok (show 1 ≤ rows w.lfb by omega)
  rw [VGAWriter.newLine, hsub, ok_bind]
  unfold rowBelow nextRow pictureBelow
  by_cases hlast : w.row + 1 < rows w.lfb
  · have hfits := rows_lt w.lfb
    rw [if_neg (by omega), usize_ok (by omega), ok_bind]
    simp only [hlast, if_true]
    exact ⟨_, rfl, rfl, rfl, rfl, rfl, rfl, rfl, rfl, fun _ _ _ _ => rfl⟩
  · rw [if_pos (by omega)]
    cases hmode : w.scrolling with
    | true =>
        obtain ⟨lfb', hscroll, hshows⟩ := scrollRow_ok w.defaultBackground
          (show 0 < rows w.lfb by omega)
        rw [if_pos rfl, hscroll, ok_bind]
        simp only [hlast, if_false, if_true]
        exact ⟨_, rfl, rfl, rfl, hmode.symm, rfl, rfl, hshows⟩
    | false =>
        simp only [hlast, if_false, Bool.false_eq_true]
        exact ⟨_, rfl, rfl, rfl, hmode.symm, rfl, rfl, rfl, rfl, fun _ _ _ _ => rfl⟩

/-- The cursor is in the text grid. -/
def InGrid (w : VGAWriter) : Prop := w.column < columns w.lfb ∧ w.row < rows w.lfb

/-- The picture with a character drawn at the cursor. -/
def pictureWith (w : VGAWriter) (c : Char) (x y : Nat) : Color :=
  if x / VGA_FONT_WIDTH = w.column ∧ y / VGA_FONT_HEIGHT = w.row then
    drawGlyph (asByte c) w.defaultText w.defaultBackground (x % VGA_FONT_WIDTH)
      (y % VGA_FONT_HEIGHT)
  else w.lfb.pixel x y

theorem drawChar_ok (hgrid : InGrid w) (c : Char) :
    ∃ w', w.drawChar c = .ok w' ∧ Step w w' (w.column + 1) w.row (pictureWith w c) := by
  obtain ⟨hcolumn, hrow⟩ := hgrid
  have hfits := columns_lt w.lfb
  obtain ⟨lfb', hput, hshows⟩ := putChar_ok w.defaultText w.defaultBackground (asByte c)
    hcolumn hrow
  rw [VGAWriter.drawChar, hput, ok_bind, usize_ok (by omega), ok_bind]
  exact ⟨_, rfl, rfl, rfl, rfl, rfl, rfl, hshows⟩

/-- Inside the grid there is nothing to wrap. -/
theorem wrap_inGrid (hcolumn : w.column < columns w.lfb) : w.wrap = .ok w :=
  if_neg (Nat.not_le.mpr hcolumn)

/-- Behind the last column a new line starts. -/
theorem wrap_full (hcolumn : columns w.lfb ≤ w.column) : w.wrap = w.newLine :=
  if_pos hcolumn

theorem Step.size {picture : Nat → Nat → Color} (h : Step w w' column row picture) :
    columns w'.lfb = columns w.lfb ∧ rows w'.lfb = rows w.lfb := by
  rw [columns, rows, h.shows.width, h.shows.height]
  exact ⟨rfl, rfl⟩

/-- **A CHARACTER.**  It is drawn, and then the cursor is in the next column or
    on a new line. -/
theorem writePlain_ok (hgrid : InGrid w) (c : Char) :
    ∃ w₁ w', w.writePlain c = .ok w' ∧ Step w w₁ (w.column + 1) w.row (pictureWith w c)
      ∧ (w.column + 1 < columns w.lfb ∧ w' = w₁
        ∨ ¬ w.column + 1 < columns w.lfb ∧ Step w₁ w' 0 (rowBelow w₁) (pictureBelow w₁)) := by
  obtain ⟨w₁, hdraw, hstep⟩ := drawChar_ok hgrid c
  obtain ⟨hcolumns, hrows⟩ := hstep.size
  rw [VGAWriter.writePlain, hdraw, ok_bind]
  by_cases hmore : w.column + 1 < columns w.lfb
  · rw [wrap_inGrid (by rw [hstep.column, hcolumns]; exact hmore)]
    exact ⟨w₁, w₁, rfl, hstep, Or.inl ⟨hmore, rfl⟩⟩
  · rw [wrap_full (by rw [hstep.column, hcolumns]; omega)]
    have hrow : w₁.row < rows w₁.lfb := by
      rw [hstep.row, hrows]
      exact hgrid.2
    obtain ⟨w', hline, hstep'⟩ := newLine_ok hrow
    exact ⟨w₁, w', hline, hstep, Or.inr ⟨hmore, hstep'⟩⟩

/-! ## The cursor stays in the grid -/

/-- The writer draws on a framebuffer of this size, its cursor in the grid. -/
structure Ready (lfb : LinearFramebuffer) (w : VGAWriter) : Prop where
  width : w.lfb.width = lfb.width
  height : w.lfb.height = lfb.height
  column : w.column < columns lfb
  row : w.row < rows lfb

theorem Ready.inGrid (h : Ready lfb w) : InGrid w := by
  rw [InGrid, columns, rows, h.width, h.height]
  exact ⟨h.column, h.row⟩

/-- A new line is in the grid when the row was. -/
theorem Ready.newLine {picture : Nat → Nat → Color} (h : Ready lfb w)
    {w₁ : VGAWriter} (hstep : Step w w₁ column w.row picture)
    (hline : Step w₁ w' 0 (rowBelow w₁) (pictureBelow w₁)) : Ready lfb w' where
  width := hline.shows.width.trans (hstep.shows.width.trans h.width)
  height := hline.shows.height.trans (hstep.shows.height.trans h.height)
  column := hline.column ▸ Nat.zero_lt_of_lt h.column
  row := by
    have hlt : rowBelow w₁ < rows w₁.lfb := nextRow_lt _ (by
      rw [hstep.row, hstep.size.2]
      exact h.inGrid.2)
    rw [hstep.size.2, rows, h.height] at hlt
    rw [hline.row]
    exact hlt

theorem newLine_ready (h : Ready lfb w) : ∃ w', w.newLine = .ok w' ∧ Ready lfb w' := by
  obtain ⟨w', hline, hstep⟩ := newLine_ok h.inGrid.2
  have hself : Step w w w.column w.row w.lfb.pixel :=
    ⟨rfl, rfl, rfl, rfl, rfl, rfl, rfl, fun _ _ _ _ => rfl⟩
  exact ⟨w', hline, h.newLine hself hstep⟩

theorem writePlain_ready (c : Char) (h : Ready lfb w) :
    ∃ w', w.writePlain c = .ok w' ∧ Ready lfb w' := by
  obtain ⟨w₁, w', hwrite, hstep, hcase⟩ := writePlain_ok h.inGrid c
  refine ⟨w', hwrite, ?_⟩
  rcases hcase with ⟨hmore, rfl⟩ | ⟨-, hline⟩
  · rw [columns, h.width] at hmore
    exact ⟨hstep.shows.width.trans h.width, hstep.shows.height.trans h.height,
      hstep.column ▸ hmore, hstep.row ▸ h.row⟩
  · exact h.newLine hstep hline

/-- **`write_char`** of any character. -/
theorem writeChar_ready (c : Char) (h : Ready lfb w) :
    ∃ w', w.writeChar c = .ok w' ∧ Ready lfb w' := by
  rw [VGAWriter.writeChar]
  split
  · obtain ⟨w', hspaces, h'⟩ := foldlM_invariant (List.range TAB_SIZE)
      (fun _ _ _ h => writePlain_ready ' ' h) h
    exact ⟨w', by rw [hspaces, ok_bind, wrap_inGrid h'.inGrid.1], h'⟩
  · split
    · obtain ⟨w', hline, h'⟩ := newLine_ready h
      exact ⟨w', by rw [hline, ok_bind, wrap_inGrid h'.inGrid.1], h'⟩
    · exact writePlain_ready c h

/-- The operation does not take the cursor out of the grid. -/
def WriterOp.Inside (lfb : LinearFramebuffer) : WriterOp → Prop
  | .setPosition row column => row < rows lfb ∧ column < columns lfb
  | _ => True

instance (lfb : LinearFramebuffer) (op : WriterOp) : Decidable (op.Inside lfb) :=
  match op with
  | .setPosition _ _ => inferInstanceAs (Decidable (_ ∧ _))
  | .text _ => inferInstanceAs (Decidable True)
  | .setBackground _ => inferInstanceAs (Decidable True)

/-- **ONE OPERATION.** -/
theorem perform_ready {op : WriterOp} (hop : op.Inside lfb) (h : Ready lfb w) :
    ∃ w', op.perform w = .ok w' ∧ Ready lfb w' := by
  cases op with
  | text op =>
      cases op with
      | writeChar c => exact writeChar_ready c h
      | writeString string => exact foldlM_invariant _ (fun c _ _ h => writeChar_ready c h) h
      | setText color => exact ⟨_, rfl, h.width, h.height, h.column, h.row⟩
  | setBackground color => exact ⟨_, rfl, h.width, h.height, h.column, h.row⟩
  | setPosition row column => exact ⟨_, rfl, h.width, h.height, hop.2, hop.1⟩

theorem new_ready (scrolling : Bool) (text background : Color) (hwidth : 8 ≤ lfb.width)
    (hheight : 16 ≤ lfb.height) : Ready lfb (.new lfb scrolling text background) :=
  ⟨rfl, rfl, Nat.div_pos hwidth (by decide), Nat.div_pos hheight (by decide)⟩

/-- A run of operations. -/
def writerRun (ops : List WriterOp) (w : VGAWriter) : Panics VGAWriter :=
  ops.foldlM WriterOp.perform w

/-- **PRINTING NEVER PANICS.**  On a framebuffer of at least one cell, whatever
    it shows, every run returns after each of its operations, with the cursor
    in the grid. -/
theorem writer_stays_in_grid (lfb : LinearFramebuffer) (scrolling : Bool)
    (text background : Color) (ops : List WriterOp) (hwidth : 8 ≤ lfb.width)
    (hheight : 16 ≤ lfb.height) (hops : ∀ op ∈ ops, op.Inside lfb) :
    ∀ done, done <+: ops →
      ∃ w, writerRun done (.new lfb scrolling text background) = .ok w
        ∧ w.lfb.width = lfb.width ∧ w.lfb.height = lfb.height
        ∧ w.column < lfb.width / 8 ∧ w.row < lfb.height / 16 := by
  intro done hdone
  have hstart := new_ready scrolling text background hwidth hheight
  obtain ⟨w, hrun, h⟩ := foldlM_invariant done
    (fun op hop _ h => perform_ready (hops op (hdone.subset hop)) h) hstart
  exact ⟨w, hrun, h.width, h.height, h.column, h.row⟩

/-- Two cells beside each other with a strip of four columns, and one row with a
    strip of three. -/
def sampleFramebuffer (color : Color) : LinearFramebuffer where
  width := 20
  height := 19
  buffer := List.replicate 380 color
  length_eq := List.length_replicate
  bounded := by decide
  width_lt := by decide
  height_lt := by decide

theorem writer_stays_in_grid_sample :
    ∃ w, writerRun [.text (.writeString "Kermol\t"), .setBackground 0xAA#32,
        .setPosition 0 1, .text (.writeChar '\n')]
          (.new (sampleFramebuffer 0#32) true 0xAAAAAA#32 0#32) = .ok w
      ∧ w.column < 2 ∧ w.row < 1 := by
  obtain ⟨w, hrun, -, -, hcolumn, hrow⟩ := writer_stays_in_grid (sampleFramebuffer 0#32) true
    0xAAAAAA#32 0#32
    [.text (.writeString "Kermol\t"), .setBackground 0xAA#32, .setPosition 0 1,
      .text (.writeChar '\n')]
    (by decide) (by decide) (by decide) _ (List.prefix_refl _)
  exact ⟨w, hrun, hcolumn, hrow⟩

/-! ## The console is a terminal -/

/-- A character with its colour. -/
structure Cell where
  byte : Byte
  color : Color
deriving DecidableEq, Repr

/-- An empty cell. -/
def blank : Cell := ⟨space, 0#32⟩

section Rules

variable {m n : Nat}

/-- The rules for a character: a tab is four spaces, a line feed starts a new
    line, and everything else is written as its code point modulo 256. -/
def typeChar (scrolling : Bool) (color : Color) (t : Terminal Cell m n) (c : Char) :
    Terminal Cell m n :=
  if c = '\t' then
    (List.range 4).foldl (fun t _ => t.put blank scrolling ⟨space, color⟩) t
  else if c = '\n' then t.newLine blank scrolling
  else t.put blank scrolling ⟨BitVec.ofNat 8 c.toNat, color⟩

/-- The rules for a text operation, on a terminal and the colour that is set. -/
def TextOp.type (scrolling : Bool) :
    Terminal Cell m n × Color → TextOp → Terminal Cell m n × Color
  | (t, color), .writeChar c => (typeChar scrolling color t c, color)
  | (t, color), .writeString string =>
      (string.toList.foldl (typeChar scrolling color) t, color)
  | (t, _), .setText color => (t, color)

/-- A terminal of blank cells. -/
def emptyTerminal (hm : 0 < m) (hn : 0 < n) : Terminal Cell m n :=
  ⟨fun _ _ => blank, 0, 0, hm, hn⟩

/-- A cell on a background: the lit pixels of its glyph have its colour. -/
def drawCell (background : Color) (cell : Cell) : Nat → Nat → Color :=
  drawGlyph cell.byte cell.color background

/-- The cells on a background, eight by sixteen pixels each. -/
def paint (background : Color) (t : Terminal Cell m n) : Nat → Nat → Color :=
  render 8 16 m n (drawCell background) background t.cell

/-- The writer shows the cells of the terminal, and is in the same row. -/
structure Agrees (background : Color) (scrolling : Bool) (w : VGAWriter)
    (t : Terminal Cell m n) : Prop where
  columns : columns w.lfb = m
  rows : rows w.lfb = n
  row : w.row = t.row
  ground : w.defaultBackground = background
  mode : w.scrolling = scrolling
  shows : ∀ x < w.lfb.width, ∀ y < w.lfb.height, w.lfb.pixel x y = paint background t x y

variable {background : Color} {scrolling : Bool} {t : Terminal Cell m n}

theorem drawCell_blank (background : Color) (i j : Nat) :
    drawCell background blank i j = background := by
  rw [drawCell, drawGlyph, blank, glyphPixel_space]
  exact if_neg Bool.false_ne_true

/-- A new line of the writer is one of the terminal. -/
theorem Agrees.newLine (h : Agrees background scrolling w t)
    (hstep : Step w w' 0 (rowBelow w) (pictureBelow w)) :
    Agrees background scrolling w' (t.newLine blank scrolling) where
  columns := hstep.size.1.trans h.columns
  rows := hstep.size.2.trans h.rows
  row := by
    rw [hstep.row, rowBelow, h.row, h.rows, h.mode]
    rfl
  ground := hstep.background.trans h.ground
  mode := hstep.scrolling.trans h.mode
  shows := by
    intro x hx y hy
    rw [hstep.shows.width] at hx
    rw [hstep.shows.height] at hy
    rw [hstep.shows.pixel x hx y hy, pictureBelow, h.row, h.rows, h.mode, paint]
    show _ = render 8 16 m n _ background (t.nextCells blank scrolling) x y
    rw [Terminal.nextCells]
    split
    · exact h.shows x hx y hy
    · split
      · have hheight : n * 16 ≤ w.lfb.height := by
          rw [← h.rows, KermolVgaText.rows, VGA_FONT_HEIGHT]
          omega
        rw [render_shiftUp (drawCell_blank background) (by decide) hheight]
        by_cases hup : y + VGA_FONT_HEIGHT < w.lfb.height
        · rw [if_pos hup, h.shows x hx _ hup]
          exact (if_pos hup).symm
        · rw [if_neg hup, h.ground]
          exact (if_neg hup).symm
      · exact h.shows x hx y hy

/-- A character drawn by the writer is a cell written in the terminal. -/
theorem Agrees.draw (h : Agrees background scrolling w t) (hcolumn : w.column = t.column)
    {c : Char} (hstep : Step w w' column w.row (pictureWith w c)) :
    Agrees background scrolling w' (t.write ⟨asByte c, w.defaultText⟩) where
  columns := hstep.size.1.trans h.columns
  rows := hstep.size.2.trans h.rows
  row := hstep.row.trans h.row
  ground := hstep.background.trans h.ground
  mode := hstep.scrolling.trans h.mode
  shows := by
    intro x hx y hy
    rw [hstep.shows.width] at hx
    rw [hstep.shows.height] at hy
    rw [hstep.shows.pixel x hx y hy, pictureWith, paint]
    show _ = render 8 16 m n _ background (overwrite t.cell t.column t.row _) x y
    rw [render_overwrite _ (by decide) (by decide) t.column_lt t.row_lt, hcolumn, h.row,
      h.ground, h.shows x hx y hy]
    rfl

/-- The writer shows the terminal, with the cursor at the same place and the
    same colour set. -/
structure Displays (background : Color) (scrolling : Bool) (w : VGAWriter)
    (console : Terminal Cell m n × Color) : Prop
    extends Agrees background scrolling w console.1 where
  column : w.column = console.1.column
  text : w.defaultText = console.2

variable {color : Color}

theorem Displays.inGrid (h : Displays background scrolling w (t, color)) : InGrid w := by
  rw [InGrid, h.columns, h.rows, h.column, h.row]
  exact ⟨t.column_lt, t.row_lt⟩

/-- `new_line`, simulated. -/
theorem newLine_sim (h : Displays background scrolling w (t, color)) :
    ∃ w', w.newLine = .ok w'
      ∧ Displays background scrolling w' (t.newLine blank scrolling, color) := by
  obtain ⟨w', hline, hstep⟩ := newLine_ok h.inGrid.2
  exact ⟨w', hline, h.toAgrees.newLine hstep, hstep.column, hstep.text.trans h.text⟩

/-- A plain character, simulated. -/
theorem writePlain_sim (c : Char) (h : Displays background scrolling w (t, color)) :
    ∃ w', w.writePlain c = .ok w'
      ∧ Displays background scrolling w' (t.put blank scrolling ⟨asByte c, color⟩, color) := by
  obtain ⟨w₁, w', hwrite, hstep, hcase⟩ := writePlain_ok h.inGrid c
  have hdraw := h.toAgrees.draw h.column hstep
  rw [h.text] at hdraw
  refine ⟨w', hwrite, ?_⟩
  rw [h.columns, h.column] at hcase
  rcases hcase with ⟨hmore, rfl⟩ | ⟨hfull, hline⟩
  · rw [Terminal.put, dif_pos hmore]
    exact ⟨⟨hdraw.columns, hdraw.rows, hdraw.row, hdraw.ground, hdraw.mode, hdraw.shows⟩,
      by rw [hstep.column, h.column], hstep.text.trans h.text⟩
  · rw [Terminal.put, dif_neg hfull]
    exact ⟨hdraw.newLine hline, hline.column, hline.text.trans (hstep.text.trans h.text)⟩

/-- **`write_char`, SIMULATED.** -/
theorem writeChar_sim (c : Char) (h : Displays background scrolling w (t, color)) :
    ∃ w', w.writeChar c = .ok w'
      ∧ Displays background scrolling w' (typeChar scrolling color t c, color) := by
  rw [VGAWriter.writeChar, typeChar]
  split
  · -- the four spaces leave the cursor in the grid, so the tab itself wraps nothing
    obtain ⟨w', hspaces, h'⟩ := foldlM_sim
      (R := fun w t => Displays background scrolling w (t, color)) (List.range TAB_SIZE)
      (fun _ _ _ _ h => writePlain_sim ' ' h) h
    exact ⟨w', by rw [hspaces, ok_bind, wrap_inGrid h'.inGrid.1], h'⟩
  · split
    · obtain ⟨w', hline, h'⟩ := newLine_sim h
      exact ⟨w', by rw [hline, ok_bind, wrap_inGrid h'.inGrid.1], h'⟩
    · exact writePlain_sim c h

/-- **ONE TEXT OPERATION, SIMULATED.** -/
theorem perform_sim (op : TextOp) (h : Displays background scrolling w (t, color)) :
    ∃ w', op.perform w = .ok w'
      ∧ Displays background scrolling w' (op.type scrolling (t, color)) := by
  cases op with
  | writeChar c => exact writeChar_sim c h
  | writeString string =>
      exact foldlM_sim (R := fun w t => Displays background scrolling w (t, color)) _
        (fun c _ _ _ h => writeChar_sim c h) h
  | setText color =>
      exact ⟨_, rfl, ⟨h.columns, h.rows, h.row, h.ground, h.mode, h.shows⟩, h.column, rfl⟩

/-- The empty terminal is all background. -/
theorem paint_emptyTerminal (background : Color) (hm : 0 < m) (hn : 0 < n) (x y : Nat) :
    paint background (emptyTerminal hm hn) x y = background := by
  rw [paint, render]
  split
  · exact drawCell_blank background _ _
  · rfl

end Rules

/-- The empty terminal for a framebuffer. -/
def terminalOf (lfb : LinearFramebuffer) (hwidth : 8 ≤ lfb.width)
    (hheight : 16 ≤ lfb.height) : Terminal Cell (lfb.width / 8) (lfb.height / 16) :=
  emptyTerminal (Nat.div_pos hwidth (by decide)) (Nat.div_pos hheight (by decide))

/-- A new writer shows it on a framebuffer of one colour. -/
theorem new_displays {background : Color} (scrolling : Bool) (text : Color)
    (hwidth : 8 ≤ lfb.width) (hheight : 16 ≤ lfb.height)
    (hempty : ∀ p ∈ lfb.buffer, p = background) :
    Displays background scrolling (.new lfb scrolling text background)
      (terminalOf lfb hwidth hheight, text) where
  columns := rfl
  rows := rfl
  row := rfl
  ground := rfl
  mode := rfl
  shows := by
    intro x hx y hy
    rw [terminalOf, paint_emptyTerminal, LinearFramebuffer.pixel,
      List.getD_eq_getElem _ _ (LinearFramebuffer.index_lt_length hx hy)]
    exact hempty _ (List.getElem_mem _)
  column := rfl
  text := rfl

/-- A run of text operations. -/
def textRun (ops : List TextOp) (w : VGAWriter) : Panics VGAWriter :=
  ops.foldlM TextOp.perform w

/-- Text leaves the cursor in the grid. -/
theorem textRun_ready (ops : List TextOp) (h : Ready lfb w) :
    ∃ w', textRun ops w = .ok w' ∧ Ready lfb w' :=
  foldlM_invariant ops
    (fun op _ _ h => perform_ready (show WriterOp.Inside lfb (.text op) from trivial) h) h

/-- **THE CONSOLE IS A TERMINAL.**  On a framebuffer of at least one cell that
    shows one colour, every run of text operations returns, and every pixel of
    the buffer is that of a terminal of `width / 8` by `height / 16` cells after
    the same operations. -/
theorem console_refines_terminal (lfb : LinearFramebuffer) (background : Color)
    (scrolling : Bool) (text : Color) (ops : List TextOp) (hwidth : 8 ≤ lfb.width)
    (hheight : 16 ≤ lfb.height) (hempty : ∀ p ∈ lfb.buffer, p = background) :
    ∃ w, textRun ops (.new lfb scrolling text background) = .ok w
      ∧ w.lfb.width = lfb.width ∧ w.lfb.height = lfb.height
      ∧ ∀ x < lfb.width, ∀ y < lfb.height, w.lfb.pixel x y
        = paint background (ops.foldl (TextOp.type scrolling)
          (terminalOf lfb hwidth hheight, text)).1 x y := by
  obtain ⟨w, hrun, h⟩ := foldlM_sim ops (fun op _ _ _ h => perform_sim op h)
    (new_displays scrolling text hwidth hheight hempty)
  obtain ⟨_, hrun', hready⟩ := foldlM_invariant ops
    (fun op _ _ h => perform_ready (show WriterOp.Inside lfb (.text op) from trivial) h)
    (new_ready scrolling text background hwidth hheight)
  cases hrun.symm.trans hrun'
  refine ⟨w, hrun, hready.width, hready.height, fun x hx y hy => ?_⟩
  exact h.shows x (hready.width.symm ▸ hx) y (hready.height.symm ▸ hy)

theorem console_refines_terminal_sample :
    ∃ w, textRun [.writeString "Kermol\t", .setText 0xAA#32, .writeChar '\n',
        .writeChar 'x'] (.new (sampleFramebuffer 0#32) true 0xAAAAAA#32 0#32) = .ok w
      ∧ ∀ x < 20, ∀ y < 19, w.lfb.pixel x y
        = paint 0#32 (([.writeString "Kermol\t", .setText 0xAA#32, .writeChar '\n',
            .writeChar 'x'] : List TextOp).foldl (TextOp.type true)
          (terminalOf (sampleFramebuffer 0#32) (by decide) (by decide), 0xAAAAAA#32)).1 x y := by
  obtain ⟨w, hrun, -, -, h⟩ := console_refines_terminal (sampleFramebuffer 0#32) 0#32 true
    0xAAAAAA#32 [.writeString "Kermol\t", .setText 0xAA#32, .writeChar '\n', .writeChar 'x']
    (by decide) (by decide) (fun p hp => List.eq_of_mem_replicate hp)
  exact ⟨w, hrun, h⟩

/-! ## Scrolling text rows -/

/-- Every line of a text row shows the line of the row `n` further down, and the
    last `n` rows are blank. -/
structure ScrollsText (lfb lfb' : LinearFramebuffer) (n : Nat) (background : Color) : Prop where
  moved : ∀ x < lfb.width, ∀ k < rows lfb - n, ∀ j < VGA_FONT_HEIGHT,
    lfb'.pixel x (k * VGA_FONT_HEIGHT + j) = lfb.pixel x ((k + n) * VGA_FONT_HEIGHT + j)
  blank : ∀ x < lfb.width, ∀ k, rows lfb - n ≤ k → k < rows lfb → ∀ j < VGA_FONT_HEIGHT,
    lfb'.pixel x (k * VGA_FONT_HEIGHT + j) = background

/-- The lines below the last text row show the background. -/
def StripBlank (lfb : LinearFramebuffer) (background : Color) : Prop :=
  ∀ x < lfb.width, ∀ y, rows lfb * VGA_FONT_HEIGHT ≤ y → y < lfb.height →
    lfb.pixel x y = background

/-- The first line of the strip lands on the first line of the last `n` rows. -/
theorem scrollsText_iff {n : Nat} {background : Color} (hrows : n ≤ rows lfb)
    (hshows : Shows lfb lfb' fun x y =>
      if y + n * VGA_FONT_HEIGHT < lfb.height then lfb.pixel x (y + n * VGA_FONT_HEIGHT)
      else background) :
    ScrollsText lfb lfb' n background ↔ n = 0 ∨ StripBlank lfb background := by
  obtain ⟨hstrip, hstrip'⟩ : rows lfb * VGA_FONT_HEIGHT ≤ lfb.height
      ∧ lfb.height < rows lfb * VGA_FONT_HEIGHT + VGA_FONT_HEIGHT := by
    rw [rows, VGA_FONT_HEIGHT]
    omega
  rw [VGA_FONT_HEIGHT] at *
  constructor
  · intro h
    by_cases hn : n = 0
    · exact Or.inl hn
    · right
      intro x hx y hlo hhi
      rw [VGA_FONT_HEIGHT] at hlo
      have hline := h.blank x hx (rows lfb - n) (Nat.le_refl _) (by omega)
        (y - rows lfb * 16) (by rw [VGA_FONT_HEIGHT]; omega)
      rw [VGA_FONT_HEIGHT, hshows.pixel x hx _ (by omega), if_pos (by omega),
        show (rows lfb - n) * 16 + (y - rows lfb * 16) + n * 16 = y by omega] at hline
      exact hline
  · intro h
    refine ⟨fun x hx k hk j hj => ?_, fun x hx k hlo hhi j hj => ?_⟩
    · rw [VGA_FONT_HEIGHT] at *
      rw [hshows.pixel x hx _ (by omega), if_pos (by omega),
        show (k + n) * 16 + j = k * 16 + j + n * 16 by omega]
    · rw [VGA_FONT_HEIGHT] at *
      rw [hshows.pixel x hx _ (by omega)]
      split
      · next hup =>
          rcases h with rfl | hblank
          · omega
          · exact hblank x hx _ (by rw [VGA_FONT_HEIGHT]; omega) hup
      · rfl

/-- **TEXT ROWS SCROLL, EXACTLY.**  For every picture and every number of rows the
    call returns, and it scrolls the text if and only if no row is asked for or
    the strip below the last text row shows the background. -/
theorem scroll_text_iff (lfb : LinearFramebuffer) (n : Nat) (background : Color)
    (hrows : n ≤ lfb.height / VGA_FONT_HEIGHT) :
    ∃ lfb', scroll lfb n background = .ok lfb'
      ∧ (ScrollsText lfb lfb' n background ↔ n = 0 ∨ StripBlank lfb background) := by
  obtain ⟨lfb', hscroll, hshows⟩ := scrollRows_ok background hrows
  exact ⟨lfb', hscroll, scrollsText_iff hrows hshows⟩

theorem scroll_text_iff_sample :
    ∃ lfb', scroll (sampleFramebuffer 0#32) 1 0#32 = .ok lfb'
      ∧ ScrollsText (sampleFramebuffer 0#32) lfb' 1 0#32 := by
  obtain ⟨lfb', hscroll, hiff⟩ := scroll_text_iff (sampleFramebuffer 0#32) 1 0#32 (by decide)
  refine ⟨lfb', hscroll, hiff.mpr (Or.inr fun x hx y _ hy => ?_)⟩
  exact List.getD_replicate 0#32 (index_lt hx hy)

/-- Three lines below the only text row are bright; after scrolling they stand in
    it. -/
theorem strip_scrolls_into_text :
    ∃ lfb', scroll (sampleFramebuffer 1#32) 1 0#32 = .ok lfb' ∧ lfb'.pixel 0 0 = 1#32
      ∧ ¬ ScrollsText (sampleFramebuffer 1#32) lfb' 1 0#32 := by
  obtain ⟨lfb', hscroll, hshows⟩ := scrollRows_ok 0#32
    (show 1 ≤ rows (sampleFramebuffer 1#32) by decide)
  have hpixel : lfb'.pixel 0 0 = 1#32 := hshows.pixel 0 (by decide) 0 (by decide)
  refine ⟨lfb', hscroll, hpixel, fun h => ?_⟩
  have hblank := h.blank 0 (by decide) 0 (by decide) (by decide) 0 (by decide)
  exact absurd (hpixel.symm.trans hblank) (by decide)

/-! ## Characters without a glyph -/

/-- The picture with a glyph in the cell at the cursor. -/
def pictureGlyph (w : VGAWriter) (glyph : List Byte) (x y : Nat) : Color :=
  if x / VGA_FONT_WIDTH = w.column ∧ y / VGA_FONT_HEIGHT = w.row then
    if (glyph.getD (y % VGA_FONT_HEIGHT) 0#8).getLsbD (7 - x % VGA_FONT_WIDTH) then
      w.defaultText
    else w.defaultBackground
  else w.lfb.pixel x y

/-- `write_char` of the character draws this glyph at the cursor: it is the one
    `put_char` looks up, the picture shows it in the cell, and then the cursor
    moves on as always. -/
structure DrawnWith (w : VGAWriter) (c : Char) (glyph : List Byte) : Prop where
  lookup : getCharGlyph (asByte c) = glyph
  drawn : ∃ w₁ w', w.drawChar c = .ok w₁
    ∧ Step w w₁ (w.column + 1) w.row (pictureGlyph w glyph)
    ∧ w₁.wrap = .ok w' ∧ w.writeChar c = .ok w'

/-- Outside ASCII. -/
def NonAscii (c : Char) : Prop := 128 ≤ c.toNat

instance (c : Char) : Decidable (NonAscii c) := inferInstanceAs (Decidable (_ ≤ _))

/-- Wherever in the string a character outside ASCII stands: what comes before it is
    written, it is drawn with the unknown glyph, and that is the glyph of no
    character of ASCII. -/
def ShowsUnknown (w : VGAWriter) (string : String) : Prop :=
  ∀ before c after, string.toList = before ++ c :: after → NonAscii c →
    (∃ w₁, before.foldlM VGAWriter.writeChar w = .ok w₁ ∧ InGrid w₁
      ∧ DrawnWith w₁ c UNKNOWN_CHARACTER)
    ∧ ∀ d, ¬ NonAscii d → getCharGlyph (asByte c) ≠ getCharGlyph (asByte d)

theorem toNat_asByte (c : Char) : (asByte c).toNat = c.toNat % 256 := by
  rw [asByte, BitVec.toNat_ofNat]

/-- A character is drawn with the glyph of its low byte. -/
theorem writeChar_drawnWith {c : Char} (hgrid : InGrid w) (htab : c ≠ '\t')
    (hline : c ≠ '\n') : DrawnWith w c (getCharGlyph (asByte c)) := by
  refine ⟨rfl, ?_⟩
  obtain ⟨w₁, hdraw, hstep⟩ := drawChar_ok hgrid c
  obtain ⟨_, w', hwrite, -, -⟩ := writePlain_ok hgrid c
  have hwrap : w₁.wrap = .ok w' := by
    rw [VGAWriter.writePlain, hdraw, ok_bind] at hwrite
    exact hwrite
  refine ⟨w₁, w', hdraw, hstep, hwrap, ?_⟩
  rw [VGAWriter.writeChar, if_neg htab, if_neg hline]
  exact hwrite

/-- **UNKNOWN CHARACTERS, EXACTLY.**  From every cursor in the grid every string is
    written.  Its characters outside ASCII are shown as unknown if and only if
    the low byte of each of them is outside ASCII, too. -/
theorem unknown_iff (w : VGAWriter) (string : String) (hgrid : InGrid w) :
    (∃ w', w.writeString string = .ok w')
      ∧ (ShowsUnknown w string
        ↔ ∀ c ∈ string.toList, 128 ≤ c.toNat → 128 ≤ c.toNat % 256) := by
  have hready : Ready w.lfb w := ⟨rfl, rfl, hgrid.1, hgrid.2⟩
  have hrun : ∀ chars : List Char, ∃ w₁, chars.foldlM VGAWriter.writeChar w = .ok w₁
      ∧ Ready w.lfb w₁ := fun chars =>
    foldlM_invariant chars (fun c _ _ h => writeChar_ready c h) hready
  refine ⟨?_, ?_, ?_⟩
  · obtain ⟨w', hwritten, -⟩ := hrun string.toList
    exact ⟨w', hwritten⟩
  · intro hshows c hc hout
    obtain ⟨before, after, hsplit⟩ := List.append_of_mem hc
    obtain ⟨⟨_, -, -, hdrawn⟩, -⟩ := hshows before c after hsplit hout
    rw [← toNat_asByte]
    exact (getCharGlyph_eq_unknown_iff _).mp hdrawn.lookup
  · intro hlow before c after hsplit hout
    have hmem : c ∈ string.toList := hsplit ▸ List.mem_append_right before List.mem_cons_self
    have hbyte := hlow c hmem hout
    have hglyph : getCharGlyph (asByte c) = UNKNOWN_CHARACTER := by
      rw [getCharGlyph_eq_unknown_iff, toNat_asByte]
      exact hbyte
    refine ⟨?_, fun d hd heq => ?_⟩
    · obtain ⟨w₁, hbefore, hready₁⟩ := hrun before
      refine ⟨w₁, hbefore, hready₁.inGrid, ?_⟩
      rw [← hglyph]
      refine writeChar_drawnWith hready₁.inGrid ?_ ?_
      · rintro rfl
        exact absurd hout (by decide)
      · rintro rfl
        exact absurd hout (by decide)
    · rw [hglyph] at heq
      have hd' := (getCharGlyph_eq_unknown_iff _).mp heq.symm
      rw [toNat_asByte] at hd'
      rw [NonAscii] at hd
      omega

/-- A letter of Latin-1 between two of ASCII. -/
theorem unknown_iff_sample :
    ShowsUnknown (.new (sampleFramebuffer 0#32) true 0xAAAAAA#32 0#32) "a\u00e9b" := by
  refine (unknown_iff _ "a\u00e9b" ⟨by decide, by decide⟩).2.mpr ?_
  intro c hc hout
  have hchars : c ∈ ['a', '\u00e9', 'b'] := hc
  rw [List.mem_cons, List.mem_cons, List.mem_singleton] at hchars
  rcases hchars with rfl | rfl | rfl
  · exact absurd hout (by decide)
  · decide
  · exact absurd hout (by decide)

/-- U+0141 is written as `A` is. -/
theorem letter_for_another :
    (VGAWriter.new (sampleFramebuffer 0#32) true 0xAAAAAA#32 0#32).writeString "\u0141"
        = (VGAWriter.new (sampleFramebuffer 0#32) true 0xAAAAAA#32 0#32).writeString "A"
      ∧ getCharGlyph (asByte '\u0141') = getCharGlyph (asByte 'A')
      ∧ ¬ ShowsUnknown (.new (sampleFramebuffer 0#32) true 0xAAAAAA#32 0#32) "\u0141" := by
  refine ⟨rfl, rfl, fun hshows => ?_⟩
  have hother := (hshows [] '\u0141' [] rfl (by decide)).2 'A' (by decide)
  exact hother rfl

end KermolVgaText
