import Mathlib.Data.List.GetD

/-! # Row-major rasters

    A raster of `w` columns is a list of cells, row behind row: column `x` of
    row `y` has index `x + y * w`.  The file has what is needed to reason by
    coordinates: the index is injective below `w`, it grows by one from each
    cell to the next, it moves by `w` for each row, and it is where a cell
    lies when rows of `w` cells are joined (`getD_flatMap_rows`).

    Moving cells inside one list (`copy`) is given by what every index reads
    afterwards; the old list is on the right, so source and target may
    overlap. -/

namespace Raster

variable {α : Type} {w h x x' y y' : Nat}

/-- The place of column `x` of row `y`. -/
def index (w x y : Nat) : Nat := x + y * w

theorem index_lt (hx : x < w) (hy : y < h) : index w x y < w * h := by
  have hrow : (y + 1) * w ≤ h * w := Nat.mul_le_mul_right w hy
  rw [Nat.succ_mul] at hrow
  rw [index, Nat.mul_comm w h]
  omega

theorem index_mod (hx : x < w) : index w x y % w = x := by
  rw [index, Nat.add_mul_mod_self_right, Nat.mod_eq_of_lt hx]

theorem index_div (hx : x < w) : index w x y / w = y := by
  rw [index, Nat.add_mul_div_right _ _ (by omega), Nat.div_eq_of_lt hx, Nat.zero_add]

/-- Different cells have different places. -/
theorem index_inj (hx : x < w) (hx' : x' < w) :
    index w x y = index w x' y' ↔ x = x' ∧ y = y' := by
  constructor
  · intro heq
    refine ⟨?_, ?_⟩
    · rw [← index_mod (y := y) hx, heq, index_mod hx']
    · rw [← index_div (y := y) hx, heq, index_div hx']
  · rintro ⟨rfl, rfl⟩
    rfl

theorem index_add_row (w x y n : Nat) : index w x (y + n) = index w x y + n * w := by
  rw [index, index, Nat.add_mul]
  omega

/-- The next cell of a row. -/
theorem index_succ (w x y : Nat) : index w (x + 1) y = index w x y + 1 := by
  rw [index, index]
  omega

/-- Behind the last cell of a row comes the first one of the next. -/
theorem index_wrap (hx : x + 1 = w) : index w 0 (y + 1) = index w x y + 1 := by
  rw [index, index, Nat.succ_mul]
  omega

/-- Cells of earlier rows come first. -/
theorem index_lt_row (hx : x < w) (hy : y < y') : index w x y < index w x' y' := by
  have hlt := index_lt hx hy
  rw [Nat.mul_comm] at hlt
  rw [index.eq_def w x' y']
  omega

section Rows

variable {β : Type} {f : β → List α}

/-- Rows of `w` cells each, one behind the other. -/
theorem length_flatMap_rows (hlen : ∀ r, (f r).length = w) (rows : List β) :
    (rows.flatMap f).length = w * rows.length := by
  induction rows with
  | nil => rfl
  | cons r rows ih =>
      rw [List.flatMap_cons, List.length_append, hlen, ih, List.length_cons, Nat.mul_succ,
        Nat.add_comm]

/-- Cell `x` of row `y` has its place in them. -/
theorem getD_flatMap_rows (hlen : ∀ r, (f r).length = w) (hx : x < w) (d : α)
    {rows : List β} :
    ∀ {y : Nat} (hy : y < rows.length),
      (rows.flatMap f).getD (index w x y) d = (f rows[y]).getD x d := by
  induction rows with
  | nil =>
      intro y hy
      exact absurd hy (Nat.not_lt_zero y)
  | cons r rows ih =>
      intro y hy
      rw [List.flatMap_cons]
      cases y with
      | zero =>
          rw [List.getD_append _ _ _ _ (by rw [hlen, index]; omega), index, Nat.zero_mul,
            Nat.add_zero]
          rfl
      | succ y =>
          rw [index_add_row, Nat.one_mul, List.getD_append_right _ _ _ _ (by rw [hlen]; omega),
            hlen, Nat.add_sub_cancel]
          exact ih (Nat.lt_of_succ_lt_succ hy)

end Rows

/-- `n` cells from `src` on, moved to `dst` as if through a buffer. -/
def copy (cells : List α) (src dst n : Nat) : List α :=
  cells.mapIdx fun i c => if dst ≤ i ∧ i < dst + n then cells.getD (src + (i - dst)) c else c

@[simp] theorem length_copy (cells : List α) (src dst n : Nat) :
    (copy cells src dst n).length = cells.length := by
  rw [copy, List.length_mapIdx]

theorem getD_copy {cells : List α} {src dst n i : Nat} (d : α)
    (hsrc : src + n ≤ cells.length) (hi : i < cells.length) :
    (copy cells src dst n).getD i d
      = if dst ≤ i ∧ i < dst + n then cells.getD (src + (i - dst)) d
        else cells.getD i d := by
  have hlen : i < (copy cells src dst n).length := by rwa [length_copy]
  rw [List.getD_eq_getElem _ _ hlen]
  simp only [copy, List.getElem_mapIdx]
  split
  · rw [List.getD_eq_getElem _ _ (by omega), List.getD_eq_getElem _ _ (by omega)]
  · rw [List.getD_eq_getElem _ _ hi]

/-- A cell after one write. -/
theorem getD_set {cells : List α} {i j : Nat} (c d : α) (hi : i < cells.length) :
    (cells.set i c).getD j d = if j = i then c else cells.getD j d := by
  rw [List.getD_eq_getElem?_getD, List.getElem?_set, List.getD_eq_getElem?_getD]
  by_cases hij : i = j
  · subst hij
    simp [hi]
  · rw [if_neg hij, if_neg (Ne.symm hij)]

end Raster
