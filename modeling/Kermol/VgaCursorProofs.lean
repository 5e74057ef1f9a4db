import Kermol.VgaTextProofs

/-! # Printing from anywhere

    `set_position` checks nothing, and a framebuffer can be smaller than a
    character.  What printing does then depends on the cursor alone: `Cursor`
    is a machine of its own that the writer follows step by step
    (`perform_lockstep`), for every size of the framebuffer and every position,
    and panics exactly where the machine stops.

    For a string the machine has a simple answer (`typeAll_iff`): from outside
    the grid only a line feed helps, and not always. -/

namespace KermolVgaText

open RustEffect ByteBits TextTerminal KermolFramebuffer KermolVgaFont

/-! ## The cursor alone -/

/-- Where the next character goes. -/
structure Cursor where
  column : Nat
  row : Nat
deriving DecidableEq, Repr

namespace Cursor

variable (m n : Nat) (scrolling : Bool)

/-- A new line, on a screen of at least one row. -/
def newLine (self : Cursor) : Option Cursor :=
  if n = 0 then none else some ⟨0, nextRow n scrolling self.row⟩

/-- The new line behind the last column. -/
def wrap (self : Cursor) : Option Cursor :=
  if m ≤ self.column then self.newLine n scrolling else some self

/-- A character that is neither a tab nor a line feed: it needs a cell. -/
def plain (self : Cursor) : Option Cursor :=
  if self.column < m ∧ self.row < n then wrap m n scrolling ⟨self.column + 1, self.row⟩
  else none

/-- Any character. -/
def type (self : Cursor) (c : Char) : Option Cursor :=
  if c = '\t' then
    (List.range TAB_SIZE).foldlM (fun k _ => plain m n scrolling k) self >>= wrap m n scrolling
  else if c = '\n' then self.newLine n scrolling >>= wrap m n scrolling
  else self.plain m n scrolling

/-- Characters one after the other. -/
def typeAll (self : Cursor) (cs : List Char) : Option Cursor := cs.foldlM (type m n scrolling) self

/-- An operation of the writer: colours do not matter. -/
def perform (self : Cursor) : WriterOp → Option Cursor
  | .text (.writeChar c) => self.type m n scrolling c
  | .text (.writeString string) => self.typeAll m n scrolling string.toList
  | .text (.setText _) => some self
  | .setBackground _ => some self
  | .setPosition row column => some ⟨column, row⟩

end Cursor

/-! ## When a string can be typed -/

namespace Cursor

variable {m n : Nat} {scrolling : Bool} {k : Cursor}

/-- The cursor is on a cell of the screen. -/
def InGrid (m n : Nat) (k : Cursor) : Prop := k.column < m ∧ k.row < n

instance : Decidable (InGrid m n k) := inferInstanceAs (Decidable (_ ∧ _))

/-- No line feed brings the cursor back: there are no columns, or the screen scrolls and the
    cursor is below its last row. -/
def Astray (m n : Nat) (scrolling : Bool) (k : Cursor) : Prop :=
  m = 0 ∨ scrolling = true ∧ n ≤ k.row

instance : Decidable (Astray m n scrolling k) := inferInstanceAs (Decidable (_ ∨ _))

theorem newLine_eq (hn : 0 < n) : k.newLine n scrolling = some ⟨0, nextRow n scrolling k.row⟩ :=
  if_neg hn.ne'

theorem wrap_inGrid (h : k.column < m) : k.wrap m n scrolling = some k := if_neg (by omega)

/-- Inside the grid a character leads to the grid. -/
theorem plain_inGrid (h : InGrid m n k) :
    ∃ k', k.plain m n scrolling = some k' ∧ InGrid m n k' := by
  obtain ⟨hcolumn, hrow⟩ := h
  rw [plain, if_pos ⟨hcolumn, hrow⟩, wrap]
  split
  · rw [newLine_eq (by omega)]
    exact ⟨_, rfl, by show 0 < m; omega, nextRow_lt scrolling hrow⟩
  · next hmore => exact ⟨_, rfl, Nat.not_le.mp hmore, hrow⟩

/-- Steps that go on and keep an invariant. -/
theorem foldlM_some {ι : Type} {g : Cursor → ι → Option Cursor} {P : Cursor → Prop}
    (xs : List ι) (hstep : ∀ x k, P k → ∃ k', g k x = some k' ∧ P k') :
    ∀ {k : Cursor}, P k → ∃ k', xs.foldlM g k = some k' ∧ P k' := by
  induction xs with
  | nil => exact fun {k} h => ⟨k, rfl, h⟩
  | cons x xs ih =>
      intro k h
      obtain ⟨k₁, hk₁, h₁⟩ := hstep x k h
      rw [List.foldlM_cons, hk₁]
      exact ih h₁

/-- A line feed from a row of the screen, or on a screen that does not scroll, leads to the
    grid. -/
theorem lineFeed_inGrid (hn : 0 < n) (h : ¬ Astray m n scrolling k) :
    ∃ k', k.type m n scrolling '\n' = some k' ∧ InGrid m n k' := by
  rw [Astray, not_or] at h
  have hrow : nextRow n scrolling k.row < n := by
    rw [nextRow]
    split
    · assumption
    · split
      · next hmode => exact Nat.not_le.mp fun hle => h.2 ⟨hmode, hle⟩
      · exact hn
  have hcolumn : (⟨0, nextRow n scrolling k.row⟩ : Cursor).column < m := Nat.pos_of_ne_zero h.1
  refine ⟨⟨0, nextRow n scrolling k.row⟩, ?_, hcolumn, hrow⟩
  rw [type, if_neg (by decide), if_pos rfl, newLine_eq hn]
  exact wrap_inGrid hcolumn

theorem not_astray (h : InGrid m n k) : ¬ Astray m n scrolling k := by
  rintro (hm | ⟨-, hrow⟩)
  · exact absurd h.1 (by omega)
  · exact absurd h.2 (Nat.not_lt.mpr hrow)

theorem type_inGrid (c : Char) (h : InGrid m n k) :
    ∃ k', k.type m n scrolling c = some k' ∧ InGrid m n k' := by
  by_cases hfeed : c = '\n'
  · subst hfeed
    exact lineFeed_inGrid (Nat.zero_lt_of_lt h.2) (not_astray h)
  · rw [type]
    split
    · obtain ⟨k', hspaces, h'⟩ : ∃ k', (List.range TAB_SIZE).foldlM
          (fun k _ => plain m n scrolling k) k = some k' ∧ InGrid m n k' :=
        foldlM_some _ (fun _ _ h => plain_inGrid h) h
      rw [hspaces]
      exact ⟨k', wrap_inGrid h'.1, h'⟩
    · exact plain_inGrid h

/-- Outside the grid nothing but a line feed can be typed. -/
theorem type_outside {c : Char} (h : ¬ InGrid m n k) (hc : c ≠ '\n') :
    k.type m n scrolling c = none := by
  have hplain : k.plain m n scrolling = none := if_neg h
  rw [type]
  split
  · rw [show List.range TAB_SIZE = 0 :: [1, 2, 3] from rfl, List.foldlM_cons, hplain]
    rfl
  · exact hplain

/-- On a screen without rows nothing can be typed at all. -/
theorem type_noRows (c : Char) (h : n = 0) : k.type m n scrolling c = none := by
  by_cases hc : c = '\n'
  · subst hc
    rw [type, if_neg (by decide), if_pos rfl, newLine, if_pos h]
    rfl
  · refine type_outside ?_ hc
    rintro ⟨-, hrow⟩
    omega

/-- Astray, a line feed changes nothing about it. -/
theorem lineFeed_astray (hn : 0 < n) (h : Astray m n scrolling k) :
    ∃ k', k.type m n scrolling '\n' = some k' ∧ Astray m n scrolling k' := by
  rw [type, if_neg (by decide), if_pos rfl, newLine_eq hn]
  rcases h with hm | ⟨hmode, hrow⟩
  · refine ⟨⟨0, nextRow n scrolling (nextRow n scrolling k.row)⟩, ?_, Or.inl hm⟩
    show wrap m n scrolling ⟨0, nextRow n scrolling k.row⟩ = _
    rw [wrap, if_pos (by omega), newLine_eq hn]
  · have hsame : nextRow n scrolling k.row = k.row := by
      rw [nextRow, if_neg (by omega), if_pos hmode]
    rw [hsame]
    by_cases hm : m = 0
    · refine ⟨⟨0, nextRow n scrolling k.row⟩, ?_, Or.inl hm⟩
      show wrap m n scrolling ⟨0, k.row⟩ = _
      rw [wrap, if_pos (by omega), newLine_eq hn]
    · exact ⟨⟨0, k.row⟩, wrap_inGrid (Nat.pos_of_ne_zero hm), Or.inr ⟨hmode, hrow⟩⟩

theorem not_inGrid (h : Astray m n scrolling k) : ¬ InGrid m n k := fun hin => not_astray hin h

/-- Astray, line feeds are all that can be typed. -/
theorem typeAll_astray (hn : 0 < n) {cs : List Char} :
    ∀ {k : Cursor}, Astray m n scrolling k →
      ((∃ k', k.typeAll m n scrolling cs = some k') ↔ ∀ c ∈ cs, c = '\n') := by
  induction cs with
  | nil => exact fun {k} _ => ⟨fun _ => nofun, fun _ => ⟨k, rfl⟩⟩
  | cons c cs ih =>
      intro k h
      rw [typeAll, List.foldlM_cons, List.forall_mem_cons]
      by_cases hc : c = '\n'
      · obtain ⟨k', hk', h'⟩ := lineFeed_astray hn h
        rw [hc, hk']
        exact (ih h').trans ⟨fun hall => ⟨rfl, hall⟩, fun hall => hall.2⟩
      · rw [type_outside (not_inGrid h) hc]
        constructor
        · rintro ⟨k', hk'⟩
          cases hk'
        · rintro ⟨hfeed, -⟩
          exact absurd hfeed hc

/-- What can be typed: nothing; or, on a screen with rows, anything from inside the grid,
    line feeds while the cursor is astray, and from elsewhere what begins with a line feed. -/
def Typable (m n : Nat) (scrolling : Bool) (k : Cursor) (cs : List Char) : Prop :=
  cs = [] ∨ 0 < n ∧ if Astray m n scrolling k then ∀ c ∈ cs, c = '\n'
    else InGrid m n k ∨ cs.head? = some '\n'

/-- **WHAT CAN BE TYPED, EXACTLY.** -/
theorem typeAll_iff (cs : List Char) :
    (∃ k', k.typeAll m n scrolling cs = some k') ↔ Typable m n scrolling k cs := by
  cases cs with
  | nil => exact ⟨fun _ => Or.inl rfl, fun _ => ⟨k, rfl⟩⟩
  | cons c cs =>
      have hcons : k.typeAll m n scrolling (c :: cs)
          = k.type m n scrolling c >>= fun k => k.typeAll m n scrolling cs := List.foldlM_cons
      rw [Typable, or_iff_right (List.cons_ne_nil c cs)]
      constructor
      · rintro ⟨k', hk'⟩
        have hn : 0 < n := by
          by_contra hzero
          rw [hcons, type_noRows c (by omega)] at hk'
          cases hk'
        refine ⟨hn, ?_⟩
        split
        · next hastray => exact (typeAll_astray hn hastray).mp ⟨k', hk'⟩
        · by_cases hc : c = '\n'
          · exact Or.inr (congrArg some hc)
          · left
            by_contra hout
            rw [hcons, type_outside hout hc] at hk'
            cases hk'
      · rintro ⟨hn, h⟩
        split at h
        · next hastray => exact (typeAll_astray hn hastray).mpr h
        · next hastray =>
            -- after the first character the cursor is in the grid
            obtain ⟨k₁, hk₁, h₁⟩ : ∃ k', k.type m n scrolling c = some k' ∧ InGrid m n k' := by
              rcases h with hin | hfeed
              · exact type_inGrid c hin
              · rw [Option.some.inj hfeed]
                exact lineFeed_inGrid hn hastray
            obtain ⟨k', hk', -⟩ := foldlM_some cs (fun c _ h => type_inGrid c h) h₁
            rw [hcons, hk₁]
            exact ⟨k', hk'⟩

end Cursor

/-! ## The writer follows -/

section Follows

variable {m n : Nat} {scrolling : Bool} {w : VGAWriter} {k : Cursor}

/-- The writer has a screen of this size and this mode, and its cursor here. -/
structure Follows (m n : Nat) (scrolling : Bool) (w : VGAWriter) (k : Cursor) : Prop where
  across : columns w.lfb = m
  down : rows w.lfb = n
  mode : w.scrolling = scrolling
  column : w.column = k.column
  row : w.row = k.row

theorem usize_eq_ok {x y : Nat} (h : usize x = .ok y) : x = y := by
  rw [usize] at h
  split at h
  · cases h
    rfl
  · cases h

/-- `plot_glyph` returns `Ok` only inside the framebuffer. -/
theorem plotGlyph_inside {lfb lfb' : LinearFramebuffer} {x y width height : Nat}
    {glyph : List Byte} {color background : Color}
    (h : lfb.plotGlyph x y width height glyph color background = .ok (.ok (), lfb')) :
    x + width ≤ lfb.width ∧ y + height ≤ lfb.height := by
  rw [LinearFramebuffer.plotGlyph] at h
  obtain ⟨right, hright, h⟩ := bind_eq_ok.mp h
  split at h
  · cases h
  · obtain ⟨bottom, hbottom, h⟩ := bind_eq_ok.mp h
    split at h
    · cases h
    · rw [usize_eq_ok hright, usize_eq_ok hbottom]
      omega

/-- `put_char` needs a cell. -/
theorem putChar_inGrid {lfb lfb' : LinearFramebuffer} {column row : Nat}
    {color background : Color} {char : Byte}
    (h : putChar lfb column row color background char = .ok lfb') :
    column < columns lfb ∧ row < rows lfb := by
  rw [putChar] at h
  obtain ⟨x, hx, h⟩ := bind_eq_ok.mp h
  obtain ⟨y, hy, h⟩ := bind_eq_ok.mp h
  obtain ⟨⟨answer, lfb₁⟩, hplot, h⟩ := bind_eq_ok.mp h
  cases answer with
  | error e => cases h
  | ok _ =>
      obtain ⟨hright, hbottom⟩ := plotGlyph_inside hplot
      rw [← usize_eq_ok hx] at hright
      rw [← usize_eq_ok hy] at hbottom
      unfold columns rows VGA_FONT_WIDTH VGA_FONT_HEIGHT at *
      omega

theorem newLine_lockstep (h : Follows m n scrolling w k) :
    Lockstep (Follows m n scrolling) w.newLine (k.newLine n scrolling) := by
  have hdown : (getTextBufferDimensions w.lfb).2 = n := h.down
  rw [VGAWriter.newLine, Cursor.newLine, hdown]
  by_cases hn : n = 0
  · rw [if_pos hn, usizeSub, if_neg (by omega)]
    exact .panics _
  · have hfits := rows_lt w.lfb
    rw [h.down] at hfits
    rw [if_neg hn, usizeSub_ok (by omega), ok_bind, h.row, h.mode, nextRow]
    by_cases hlast : k.row + 1 < n
    · rw [if_neg (by omega), if_pos hlast, usize_ok (by omega), ok_bind]
      exact .returns ⟨h.across, h.down, rfl, rfl, rfl⟩
    · rw [if_pos (by omega), if_neg hlast]
      cases scrolling with
      | true =>
          obtain ⟨lfb', hscroll, hshows⟩ := scrollRow_ok w.defaultBackground
            (show 0 < rows w.lfb by rw [h.down]; omega)
          rw [if_pos rfl, if_pos rfl, hscroll, ok_bind]
          refine .returns ⟨?_, ?_, rfl, rfl, rfl⟩
          · rw [← h.across, columns, columns, hshows.width]
          · rw [← h.down, rows, rows, hshows.height]
      | false => exact .returns ⟨h.across, h.down, rfl, rfl, rfl⟩

theorem wrap_lockstep (h : Follows m n scrolling w k) :
    Lockstep (Follows m n scrolling) w.wrap (k.wrap m n scrolling) := by
  have hacross : (getTextBufferDimensions w.lfb).1 = m := h.across
  rw [VGAWriter.wrap, Cursor.wrap, hacross, h.column]
  split
  · exact newLine_lockstep h
  · exact .returns h

theorem writePlain_lockstep (c : Char) (h : Follows m n scrolling w k) :
    Lockstep (Follows m n scrolling) (w.writePlain c) (k.plain m n scrolling) := by
  rw [VGAWriter.writePlain, Cursor.plain]
  by_cases hgrid : k.column < m ∧ k.row < n
  · have hin : InGrid w := by
      rw [InGrid, h.across, h.down, h.column, h.row]
      exact hgrid
    obtain ⟨w₁, hdraw, hstep⟩ := drawChar_ok hin c
    obtain ⟨hcolumns, hrows⟩ := hstep.size
    rw [if_pos hgrid, hdraw, ok_bind]
    refine wrap_lockstep ⟨hcolumns.trans h.across, hrows.trans h.down,
      hstep.scrolling.trans h.mode, ?_, hstep.row.trans h.row⟩
    rw [hstep.column, h.column]
  · rw [if_neg hgrid]
    cases hdraw : w.drawChar c with
    | error p => exact .panics p
    | ok w₁ =>
        obtain ⟨lfb', hput, -⟩ := bind_eq_ok.mp hdraw
        have hin := putChar_inGrid hput
        rw [h.across, h.down, h.column, h.row] at hin
        exact absurd hin hgrid

theorem writeChar_lockstep (c : Char) (h : Follows m n scrolling w k) :
    Lockstep (Follows m n scrolling) (w.writeChar c) (k.type m n scrolling c) := by
  rw [VGAWriter.writeChar, Cursor.type]
  split
  · exact (Lockstep.foldlM _ (fun _ _ _ h => writePlain_lockstep ' ' h) h).bind
      fun _ _ h => wrap_lockstep h
  · split
    · exact (newLine_lockstep h).bind fun _ _ h => wrap_lockstep h
    · exact writePlain_lockstep c h

theorem writeString_lockstep (string : String) (h : Follows m n scrolling w k) :
    Lockstep (Follows m n scrolling) (w.writeString string)
      (k.typeAll m n scrolling string.toList) :=
  Lockstep.foldlM _ (fun c _ _ h => writeChar_lockstep c h) h

/-- **EACH OPERATION** in lockstep. -/
theorem perform_lockstep (op : WriterOp) (h : Follows m n scrolling w k) :
    Lockstep (Follows m n scrolling) (op.perform w) (k.perform m n scrolling op) := by
  cases op with
  | text op =>
      cases op with
      | writeChar c => exact writeChar_lockstep c h
      | writeString string => exact writeString_lockstep string h
      | setText color => exact .returns ⟨h.across, h.down, h.mode, h.column, h.row⟩
  | setBackground color => exact .returns ⟨h.across, h.down, h.mode, h.column, h.row⟩
  | setPosition row column => exact .returns ⟨h.across, h.down, h.mode, rfl, rfl⟩

end Follows

/-- **PRINTING FROM ANYWHERE.**  For every framebuffer, also one smaller than a character, every
    writer on it and every run of operations, `set_position` to anywhere
    included: the writer returns exactly when the cursor machine does, and then
    with its cursor; and a string is printed without a panic exactly when it can
    be typed from where the cursor is. -/
theorem printing_returns_iff (w : VGAWriter) (ops : List WriterOp) :
    ((∃ w', writerRun ops w = .ok w')
        ↔ ∃ k, ops.foldlM (Cursor.perform (columns w.lfb) (rows w.lfb) w.scrolling)
          ⟨w.column, w.row⟩ = some k)
      ∧ ∀ w', writerRun ops w = .ok w' →
        ops.foldlM (Cursor.perform (columns w.lfb) (rows w.lfb) w.scrolling) ⟨w.column, w.row⟩
            = some ⟨w'.column, w'.row⟩
          ∧ columns w'.lfb = columns w.lfb ∧ rows w'.lfb = rows w.lfb
          ∧ ∀ string, (∃ w'', w'.writeString string = .ok w'')
            ↔ Cursor.Typable (columns w.lfb) (rows w.lfb) w.scrolling ⟨w'.column, w'.row⟩
              string.toList := by
  have hstart : Follows (columns w.lfb) (rows w.lfb) w.scrolling w ⟨w.column, w.row⟩ :=
    ⟨rfl, rfl, rfl, rfl, rfl⟩
  have hrun := Lockstep.foldlM ops (fun op _ _ h => perform_lockstep op h) hstart
  refine ⟨hrun.returns_iff, fun w' hw' => ?_⟩
  obtain ⟨k, hk, h⟩ := hrun.related hw'
  have hcursor : k = ⟨w'.column, w'.row⟩ := by rw [h.column, h.row]
  subst hcursor
  refine ⟨hk, h.across, h.down, fun string => ?_⟩
  rw [(writeString_lockstep string h).returns_iff]
  exact Cursor.typeAll_iff string.toList

end KermolVgaText
