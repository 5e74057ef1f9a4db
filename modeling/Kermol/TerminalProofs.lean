import Mathlib.Order.Nat

/-! # A terminal of character cells

    The plain rules of a terminal: a character overwrites the cell at the
    cursor, the cursor advances, and at the end of a line it goes to the next
    one.  Behind the last row the terminal scrolls, or starts over at the top.
    Cells are of any type.

    `render` paints the cells as rectangles of pixels.  The two lemmas about it
    say what the two changes of the cells do to the picture: one rectangle is
    painted over, or the picture moves up by the height of a row. -/

namespace TextTerminal

variable {α β : Type}

/-- A terminal with its cursor, which stays inside. -/
structure Terminal (α : Type) (columns rows : Nat) where
  cell : Nat → Nat → α
  column : Nat
  row : Nat
  column_lt : column < columns
  row_lt : row < rows

/-- One cell replaced. -/
def overwrite (cell : Nat → Nat → α) (column row : Nat) (a : α) (c r : Nat) : α :=
  if c = column ∧ r = row then a else cell c r

/-- Every row takes the place of the one above it; the last one is blank. -/
def shiftUp (rows : Nat) (blank : α) (cell : Nat → Nat → α) (c r : Nat) : α :=
  if r + 1 < rows then cell c (r + 1) else blank

/-- The row of the next line: below, or on the last row the same or the first. -/
def nextRow (rows : Nat) (scrolling : Bool) (row : Nat) : Nat :=
  if row + 1 < rows then row + 1 else if scrolling then row else 0

theorem nextRow_lt {rows row : Nat} (scrolling : Bool) (hrow : row < rows) :
    nextRow rows scrolling row < rows := by
  rw [nextRow]
  split
  · assumption
  · split
    · exact hrow
    · omega

namespace Terminal

variable {columns rows : Nat}

/-- The cells of the next line: only behind the last row is there anything to
    do, and only when the terminal scrolls. -/
def nextCells (blank : α) (scrolling : Bool) (t : Terminal α columns rows) :
    Nat → Nat → α :=
  if t.row + 1 < rows then t.cell
  else if scrolling then shiftUp rows blank t.cell else t.cell

/-- Start a new line. -/
def newLine (blank : α) (scrolling : Bool) (t : Terminal α columns rows) :
    Terminal α columns rows where
  cell := t.nextCells blank scrolling
  column := 0
  row := nextRow rows scrolling t.row
  column_lt := Nat.zero_lt_of_lt t.column_lt
  row_lt := nextRow_lt scrolling t.row_lt

/-- The cell at the cursor replaced. -/
def write (a : α) (t : Terminal α columns rows) : Terminal α columns rows :=
  { t with cell := overwrite t.cell t.column t.row a }

/-- Write a cell and advance. -/
def put (blank : α) (scrolling : Bool) (a : α) (t : Terminal α columns rows) :
    Terminal α columns rows :=
  if h : t.column + 1 < columns then
    { t.write a with column := t.column + 1, column_lt := h }
  else (t.write a).newLine blank scrolling

end Terminal

/-! ## The picture -/

/-- The cells as rectangles of `w` by `h` pixels, from the top left corner on. -/
def render (w h columns rows : Nat) (draw : α → Nat → Nat → β) (outside : β)
    (cell : Nat → Nat → α) (x y : Nat) : β :=
  if x < columns * w ∧ y < rows * h then draw (cell (x / w) (y / h)) (x % w) (y % h)
  else outside

variable {w h columns rows : Nat} {draw : α → Nat → Nat → β} {outside : β}
  {cell : Nat → Nat → α}

/-- Another cell paints over one rectangle. -/
theorem render_overwrite {column row : Nat} (a : α) (hw : 0 < w) (hh : 0 < h)
    (hcolumn : column < columns) (hrow : row < rows) (x y : Nat) :
    render w h columns rows draw outside (overwrite cell column row a) x y
      = if x / w = column ∧ y / h = row then draw a (x % w) (y % h)
        else render w h columns rows draw outside cell x y := by
  by_cases hcell : x / w = column ∧ y / h = row
  · have hin : x < columns * w ∧ y < rows * h :=
      ⟨(Nat.div_lt_iff_lt_mul hw).mp (hcell.1.symm ▸ hcolumn),
        (Nat.div_lt_iff_lt_mul hh).mp (hcell.2.symm ▸ hrow)⟩
    rw [if_pos hcell, render, if_pos hin, overwrite, if_pos hcell]
  · rw [if_neg hcell, render, render, overwrite, if_neg hcell]

/-- When a blank cell shows the colour outside, one row up is the picture moved
    up by the height of a row, whatever strip lies below the cells. -/
theorem render_shiftUp {blank : α} (hblank : ∀ i j, draw blank i j = outside) (hh : 0 < h)
    {height : Nat} (hheight : rows * h ≤ height) (x y : Nat) :
    render w h columns rows draw outside (shiftUp rows blank cell) x y
      = if y + h < height then render w h columns rows draw outside cell x (y + h)
        else outside := by
  have hrow : (y + h) / h = y / h + 1 := Nat.add_div_right y hh
  have hlast : y / h + 1 < rows ↔ y + h < rows * h := by
    rw [← hrow]
    exact Nat.div_lt_iff_lt_mul hh
  rw [render, render, hrow, Nat.add_mod_right, shiftUp]
  by_cases hin : y + h < rows * h
  · -- a row with another one below it
    have hy : y < rows * h := by omega
    simp only [hlast.mpr hin, hin, hy, show y + h < height by omega, if_true]
  · -- the last row, or the strip
    simp only [mt hlast.mp hin, hin, if_false, hblank, and_false, ite_self]

end TextTerminal
