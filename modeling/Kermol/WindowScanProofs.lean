import Mathlib.Order.Nat
import Kermol.FallibleProofs

/-! # First-fit window scans

    Two nested loops look for a window of `target` unused cells: the inner
    loop counts unused cells from the current position on, the outer loop
    starts over behind every used cell.  Cells lie `stride` apart below
    `limit`, and reading one may panic.

    The loops take fuel; `limit` is enough, because every round advances.
    `Runs` and `Scans` are the same loops without fuel, by the rules of `while`,
    and what the scan returns they derive (`scans_of_scan`).
    `scan_sound` and `scan_complete` say what the scan finds: the first window
    in the progression of positions, or, when the end of the cells cuts the
    last window short, what is left there.  `scan_past` and `scan_exhausted`
    say where it ends otherwise, and `scan_panics` when it reads a cell it
    must not. -/

namespace WindowScan

open RustEffect

variable {ε : Type} {used : Nat → Panics Bool} {stride limit target : Nat}

/-- The inner loop: whether it met a used cell, the cells it counted (that one
    included), and the position behind them. -/
def run (used : Nat → Panics Bool) (stride limit target : Nat) :
    Nat → Nat → Nat → Panics (Bool × Nat × Nat)
  | 0, found, current => return (false, found, current)
  | fuel + 1, found, current =>
      if found < target ∧ current < limit then do
        let u ← used current
        if u then return (true, found + 1, current + stride)
        else run used stride limit target fuel (found + 1) (current + stride)
      else return (false, found, current)

/-- The outer loop. -/
def scan (used : Nat → Panics Bool) (stride limit target : Nat) (exhausted : ε) :
    Nat → Nat → Panics (Except ε Nat)
  | 0, _ => return .error exhausted
  | fuel + 1, current =>
      if current < limit then do
        let (sum, found, next) ← run used stride limit target limit 0 current
        if sum then scan used stride limit target exhausted fuel next
        else return .ok (next - found * stride)
      else return .error exhausted

/-- `k` unused cells from position `s` on. -/
def Clear (used : Nat → Panics Bool) (stride limit s k : Nat) : Prop :=
  ∀ j < k, s + j * stride < limit ∧ used (s + j * stride) = .ok false

theorem clear_zero (s : Nat) : Clear used stride limit s 0 :=
  fun j hj => absurd hj (Nat.not_lt_zero j)

theorem Clear.mono {s j k : Nat} (h : Clear used stride limit s k) (hjk : j ≤ k) :
    Clear used stride limit s j :=
  fun i hi => h i (Nat.lt_of_lt_of_le hi hjk)

/-- Positions are counted from the next cell on. -/
theorem next_cell (s j : Nat) : s + stride + j * stride = s + (j + 1) * stride := by
  rw [Nat.succ_mul]
  omega

/-- Positions counted from cell `j` on. -/
theorem skip_cells (s j i : Nat) : s + j * stride + i * stride = s + (j + i) * stride := by
  rw [Nat.add_assoc, ← Nat.add_mul]

/-- One more cell in front. -/
theorem clear_succ {s k : Nat} :
    Clear used stride limit s (k + 1)
      ↔ (s < limit ∧ used s = .ok false) ∧ Clear used stride limit (s + stride) k := by
  constructor
  · intro h
    refine ⟨by simpa using h 0 (Nat.succ_pos k), ?_⟩
    intro j hj
    rw [next_cell]
    exact h (j + 1) (Nat.succ_lt_succ hj)
  · rintro ⟨h₀, h⟩ j hj
    cases j with
    | zero => simpa using h₀
    | succ j =>
        rw [← next_cell]
        exact h j (Nat.lt_of_succ_lt_succ hj)

/-! ## The inner loop -/

/-- **INNER LOOP, INVERTED.**  It counted `k` cells: all unused, and then the
    window was full or the cells at an end; or all but the last unused. -/
theorem run_cases (hstride : 0 < stride) :
    ∀ {fuel found current : Nat} {sum : Bool} {found' next : Nat},
      limit ≤ current + fuel → found ≤ target →
      run used stride limit target fuel found current = .ok (sum, found', next) →
      ∃ k, found' = found + k ∧ next = current + k * stride
        ∧ ((sum = false ∧ Clear used stride limit current k ∧ found' ≤ target
            ∧ (found' = target ∨ limit ≤ next))
          ∨ (sum = true ∧ ∃ j, k = j + 1 ∧ Clear used stride limit current j
            ∧ current + j * stride < limit ∧ used (current + j * stride) = .ok true
            ∧ found' ≤ target)) := by
  intro fuel
  induction fuel with
  | zero =>
      intro found current sum found' next hfuel hle h
      cases h
      exact ⟨0, rfl, by simp, Or.inl ⟨rfl, clear_zero _, hle, Or.inr hfuel⟩⟩
  | succ fuel ih =>
      intro found current sum found' next hfuel hle h
      rw [run] at h
      by_cases hgo : found < target ∧ current < limit
      · rw [if_pos hgo] at h
        obtain ⟨u, hu, h⟩ := bind_eq_ok.mp h
        cases u with
        | true =>
            -- a used cell is counted too, and ends the loop
            cases h
            refine ⟨1, rfl, by simp, Or.inr ⟨rfl, 0, rfl, clear_zero _, ?_, ?_, hgo.1⟩⟩
            · simpa using hgo.2
            · simpa using hu
        | false =>
            rw [if_neg Bool.false_ne_true] at h
            obtain ⟨k, hf, hn, hcase⟩ := ih (by omega) hgo.1 h
            refine ⟨k + 1, by omega, by rw [hn, next_cell], ?_⟩
            rcases hcase with ⟨hs, hc, ht, hend⟩ | ⟨hs, j, hk, hc, hlim, hused, ht⟩
            · left
              exact ⟨hs, clear_succ.mpr ⟨⟨hgo.2, hu⟩, hc⟩, ht, hend⟩
            · right
              rw [next_cell] at hlim hused
              exact ⟨hs, j + 1, by omega, clear_succ.mpr ⟨⟨hgo.2, hu⟩, hc⟩, hlim, hused,
                ht⟩
      · rw [if_neg hgo] at h
        cases h
        exact ⟨0, rfl, by simp, Or.inl ⟨rfl, clear_zero _, hle, by omega⟩⟩

/-- A full window ends the inner loop. -/
theorem run_window {k : Nat} : ∀ {fuel found current : Nat}, found + k = target →
    limit ≤ current + fuel → 0 < stride → Clear used stride limit current k →
    run used stride limit target fuel found current
      = .ok (false, target, current + k * stride) := by
  induction k with
  | zero =>
      intro fuel found current hk _ _ _
      have hstop : ¬ (found < target ∧ current < limit) := by omega
      cases fuel with
      | zero => simp [run, ← hk]
      | succ fuel => rw [run, if_neg hstop]; simp [← hk]
  | succ k ih =>
      intro fuel found current hk hfuel hs hc
      obtain ⟨⟨hlt, hu⟩, hc'⟩ := clear_succ.mp hc
      obtain ⟨fuel, rfl⟩ : ∃ f, fuel = f + 1 := ⟨fuel - 1, by omega⟩
      rw [run, if_pos ⟨by omega, hlt⟩, hu, ok_bind, if_neg Bool.false_ne_true,
        ih (by omega) (by omega) hs hc', next_cell]

/-- So does the first used cell. -/
theorem run_used {k : Nat} : ∀ {fuel found current : Nat}, found + k < target →
    limit ≤ current + fuel → 0 < stride → Clear used stride limit current k →
    current + k * stride < limit → used (current + k * stride) = .ok true →
    run used stride limit target fuel found current
      = .ok (true, found + k + 1, current + (k + 1) * stride) := by
  induction k with
  | zero =>
      intro fuel found current hk hfuel _ _ hlt hu
      rw [Nat.zero_mul, Nat.add_zero] at hlt hu
      obtain ⟨fuel, rfl⟩ : ∃ f, fuel = f + 1 := ⟨fuel - 1, by omega⟩
      rw [run, if_pos ⟨by omega, hlt⟩, hu, ok_bind, if_pos rfl]
      simp
  | succ k ih =>
      intro fuel found current hk hfuel hs hc hlt hu
      obtain ⟨⟨hlt₀, hu₀⟩, hc'⟩ := clear_succ.mp hc
      obtain ⟨fuel, rfl⟩ : ∃ f, fuel = f + 1 := ⟨fuel - 1, by omega⟩
      rw [← next_cell] at hlt hu
      rw [run, if_pos ⟨by omega, hlt₀⟩, hu₀, ok_bind, if_neg Bool.false_ne_true,
        ih (by omega) (by omega) hs hc' hlt hu, next_cell]
      congr 3
      omega

/-! ## The outer loop -/

/-- A used cell spoils every window that contains it. -/
theorem not_clear_of_used {s j m : Nat} (hu : used (s + j * stride) = .ok true)
    (hm : m ≤ j) (hj : j < m + target) :
    ¬ Clear used stride limit (s + m * stride) target := by
  intro h
  have hcell := (h (j - m) (by omega)).2
  rw [skip_cells, Nat.add_sub_cancel' hm, hu] at hcell
  cases hcell

/-- **SOUND.**  The scan returns the first window of the progression, or the
    cells left at the end when they are fewer than a window. -/
theorem scan_sound (hstride : 0 < stride) {exhausted : ε} :
    ∀ {fuel current s : Nat}, limit ≤ current + fuel →
      scan used stride limit target exhausted fuel current = .ok (.ok s) →
      ∃ m, s = current + m * stride
        ∧ (∀ m' < m, ¬ Clear used stride limit (current + m' * stride) target)
        ∧ (Clear used stride limit s target
          ∨ ∃ k, 0 < k ∧ k < target ∧ Clear used stride limit s k
            ∧ limit ≤ s + k * stride) := by
  intro fuel
  induction fuel with
  | zero => intro current s _ h; cases h
  | succ fuel ih =>
      intro current s hfuel h
      rw [scan] at h
      by_cases hlt : current < limit
      · rw [if_pos hlt] at h
        obtain ⟨⟨sum, found, next⟩, hrun, h⟩ := bind_eq_ok.mp h
        obtain ⟨k, hf, hn, hcase⟩ := run_cases hstride (by omega) (Nat.zero_le _) hrun
        rw [Nat.zero_add] at hf
        rcases hcase with ⟨rfl, hc, hle, hend⟩ | ⟨rfl, j, rfl, hc, hjlt, hu, hle⟩
        · have hs : s = current := by
            cases h
            rw [hn, hf]
            omega
          subst hs
          refine ⟨0, by simp, fun m' hm' => absurd hm' (Nat.not_lt_zero m'), ?_⟩
          by_cases hfull : k = target
          · exact Or.inl (hfull ▸ hc)
          · have hlim : limit ≤ s + k * stride := by omega
            have hk : 0 < k := by
              by_contra hk0
              have hzero : k = 0 := by omega
              rw [hzero, Nat.zero_mul] at hlim
              omega
            exact Or.inr ⟨k, hk, by omega, hc, hlim⟩
        · -- start over behind the used cell: no window begins before it
          dsimp only at h
          rw [if_pos rfl, hn] at h
          have hadv : (j + 1) * stride = j * stride + stride := Nat.succ_mul j stride
          obtain ⟨m, hs, hmin, hres⟩ := ih (by omega) h
          refine ⟨j + 1 + m, by rw [hs, skip_cells], ?_, hres⟩
          intro m' hm'
          by_cases hj : m' ≤ j
          · exact not_clear_of_used hu hj (by omega)
          · have h' := hmin (m' - (j + 1)) (by omega)
            rwa [skip_cells, Nat.add_sub_cancel' (by omega)] at h'
      · rw [if_neg hlt] at h
        cases h

/-- **WHERE IT STARTS.**  What the scan returns lies below the end of the cells,
    and either at the start or right behind a used cell. -/
theorem scan_start (hstride : 0 < stride) {exhausted : ε} :
    ∀ {fuel current s : Nat}, limit ≤ current + fuel →
      scan used stride limit target exhausted fuel current = .ok (.ok s) →
      s < limit ∧ (s = current
        ∨ ∃ m, s = current + (m + 1) * stride ∧ used (current + m * stride) = .ok true) := by
  intro fuel
  induction fuel with
  | zero => intro current s _ h; cases h
  | succ fuel ih =>
      intro current s hfuel h
      rw [scan] at h
      by_cases hlt : current < limit
      · rw [if_pos hlt] at h
        obtain ⟨⟨sum, found, next⟩, hrun, h⟩ := bind_eq_ok.mp h
        obtain ⟨k, hf, hn, hcase⟩ := run_cases hstride (by omega) (Nat.zero_le _) hrun
        rw [Nat.zero_add] at hf
        rcases hcase with ⟨rfl, -⟩ | ⟨rfl, j, rfl, -, -, hu, -⟩
        · have hs : s = current := by
            cases h
            rw [hn, hf]
            omega
          exact ⟨by omega, Or.inl hs⟩
        · dsimp only at h
          rw [if_pos rfl, hn] at h
          have hadv : (j + 1) * stride = j * stride + stride := Nat.succ_mul j stride
          obtain ⟨hs, hstart⟩ := ih (by omega) h
          refine ⟨hs, Or.inr ?_⟩
          rcases hstart with rfl | ⟨m, rfl, hm⟩
          · exact ⟨j, rfl, hu⟩
          · -- counted from the first position on, the used cell is `j + 1 + m`
            rw [skip_cells] at hm
            exact ⟨j + 1 + m, skip_cells current (j + 1) (m + 1), hm⟩
      · rw [if_neg hlt] at h
        cases h

/-- **EXHAUSTED.**  The scan gives up only behind the last cell: there was none,
    or the last one is used. -/
theorem scan_exhausted (hstride : 0 < stride) {exhausted e : ε} :
    ∀ {fuel current : Nat}, limit ≤ current + fuel →
      scan used stride limit target exhausted fuel current = .ok (.error e) →
      e = exhausted ∧ (limit ≤ current
        ∨ ∃ m, used (current + m * stride) = .ok true ∧ current + m * stride < limit
          ∧ limit ≤ current + (m + 1) * stride) := by
  intro fuel
  induction fuel with
  | zero =>
      intro current hfuel h
      cases h
      exact ⟨rfl, Or.inl hfuel⟩
  | succ fuel ih =>
      intro current hfuel h
      rw [scan] at h
      by_cases hlt : current < limit
      · rw [if_pos hlt] at h
        obtain ⟨⟨sum, found, next⟩, hrun, h⟩ := bind_eq_ok.mp h
        obtain ⟨k, hf, hn, hcase⟩ := run_cases hstride (by omega) (Nat.zero_le _) hrun
        rcases hcase with ⟨rfl, -⟩ | ⟨rfl, j, rfl, -, hjlt, hu, -⟩
        · cases h
        · dsimp only at h
          rw [if_pos rfl, hn] at h
          have hadv : (j + 1) * stride = j * stride + stride := Nat.succ_mul j stride
          obtain ⟨he, hend⟩ := ih (by omega) h
          refine ⟨he, Or.inr ?_⟩
          rcases hend with hlim | ⟨m, hm, hmlt, hmend⟩
          · exact ⟨j, hu, hjlt, hlim⟩
          · rw [skip_cells] at hm hmlt hmend
            exact ⟨j + 1 + m, hm, hmlt, hmend⟩
      · rw [if_neg hlt] at h
        cases h
        exact ⟨rfl, Or.inl (by omega)⟩

/-! ## The loops without fuel -/

/-- The inner `while`, by its rules: its guard fails, or the cell is used, or the
    loop goes on behind the cell. -/
inductive Runs (used : Nat → Panics Bool) (stride limit target : Nat) :
    Nat → Nat → Bool × Nat × Nat → Prop
  | stop {found current : Nat} (hguard : ¬ (found < target ∧ current < limit)) :
      Runs used stride limit target found current (false, found, current)
  | hit {found current : Nat} (hguard : found < target ∧ current < limit)
      (hcell : used current = .ok true) :
      Runs used stride limit target found current (true, found + 1, current + stride)
  | next {found current : Nat} {out : Bool × Nat × Nat}
      (hguard : found < target ∧ current < limit) (hcell : used current = .ok false)
      (hrest : Runs used stride limit target (found + 1) (current + stride) out) :
      Runs used stride limit target found current out

/-- The outer `while`: its guard fails, or the inner loop has met no used cell, or
    the loop starts over where the inner one stopped. -/
inductive Scans (used : Nat → Panics Bool) (stride limit target : Nat) (exhausted : ε) :
    Nat → Except ε Nat → Prop
  | stop {current : Nat} (hguard : ¬ current < limit) :
      Scans used stride limit target exhausted current (.error exhausted)
  | found {current found next : Nat} (hguard : current < limit)
      (hrun : Runs used stride limit target 0 current (false, found, next)) :
      Scans used stride limit target exhausted current (.ok (next - found * stride))
  | again {current found next : Nat} {r : Except ε Nat} (hguard : current < limit)
      (hrun : Runs used stride limit target 0 current (true, found, next))
      (hrest : Scans used stride limit target exhausted next r) :
      Scans used stride limit target exhausted current r

/-- With enough fuel the inner loop is its `while`. -/
theorem runs_of_run (hstride : 0 < stride) :
    ∀ {fuel found current : Nat} {out : Bool × Nat × Nat}, limit ≤ current + fuel →
      run used stride limit target fuel found current = .ok out →
      Runs used stride limit target found current out := by
  intro fuel
  induction fuel with
  | zero =>
      intro found current out hfuel h
      cases h
      exact .stop fun hguard => by omega
  | succ fuel ih =>
      intro found current out hfuel h
      rw [run] at h
      by_cases hguard : found < target ∧ current < limit
      · rw [if_pos hguard] at h
        obtain ⟨u, hu, h⟩ := bind_eq_ok.mp h
        cases u with
        | true =>
            cases h
            exact .hit hguard hu
        | false => exact .next hguard hu (ih (by omega) h)
      · rw [if_neg hguard] at h
        cases h
        exact .stop hguard

/-- **TERMINATES.**  With enough fuel the outer loop is its `while`: a derivation is
    a run of the two loops that ends. -/
theorem scans_of_scan (hstride : 0 < stride) {exhausted : ε} :
    ∀ {fuel current : Nat} {r : Except ε Nat}, limit ≤ current + fuel →
      scan used stride limit target exhausted fuel current = .ok r →
      Scans used stride limit target exhausted current r := by
  intro fuel
  induction fuel with
  | zero =>
      intro current r hfuel h
      cases h
      exact .stop (by omega)
  | succ fuel ih =>
      intro current r hfuel h
      rw [scan] at h
      by_cases hguard : current < limit
      · rw [if_pos hguard] at h
        obtain ⟨⟨sum, found, next⟩, hrun, h⟩ := bind_eq_ok.mp h
        have hruns := runs_of_run hstride (by omega) hrun
        obtain ⟨k, -, hn, hcase⟩ := run_cases hstride (by omega) (Nat.zero_le _) hrun
        rcases hcase with ⟨rfl, -⟩ | ⟨rfl, j, rfl, -⟩
        · cases h
          exact .found hguard hruns
        · -- the next round starts behind this one
          have hadv : (j + 1) * stride = j * stride + stride := Nat.succ_mul j stride
          exact .again hguard hruns (ih (by omega) h)
      · rw [if_neg hguard] at h
        cases h
        exact .stop hguard

/-! ## When it returns, and what it finds -/

/-- A scan that starts behind the cells gives up. -/
theorem scan_past {exhausted : ε} {fuel current : Nat} (h : limit ≤ current) :
    scan used stride limit target exhausted fuel current = .ok (.error exhausted) := by
  cases fuel with
  | zero => rfl
  | succ fuel =>
      rw [scan, if_neg (by omega)]
      rfl

/-- The inner loop returns when every cell can be read. -/
theorem run_total (hread : ∀ c < limit, ∃ u, used c = .ok u) :
    ∀ {fuel found current : Nat}, ∃ out,
      run used stride limit target fuel found current = .ok out := by
  intro fuel
  induction fuel with
  | zero => intro found current; exact ⟨_, rfl⟩
  | succ fuel ih =>
      intro found current
      rw [run]
      by_cases hgo : found < target ∧ current < limit
      · obtain ⟨u, hu⟩ := hread current hgo.2
        rw [if_pos hgo, hu, ok_bind]
        cases u with
        | true => exact ⟨_, rfl⟩
        | false => exact ih
      · rw [if_neg hgo]
        exact ⟨_, rfl⟩

/-- **TOTAL.**  So does the scan. -/
theorem scan_total (hread : ∀ c < limit, ∃ u, used c = .ok u) {exhausted : ε} :
    ∀ {fuel current : Nat}, ∃ r,
      scan used stride limit target exhausted fuel current = .ok r := by
  intro fuel
  induction fuel with
  | zero => intro current; exact ⟨_, rfl⟩
  | succ fuel ih =>
      intro current
      rw [scan]
      by_cases hlt : current < limit
      · obtain ⟨⟨sum, found, next⟩, hrun⟩ :
            ∃ out, run used stride limit target limit 0 current = .ok out := run_total hread
        rw [if_pos hlt, hrun, ok_bind]
        cases sum with
        | true => exact ih
        | false => exact ⟨_, rfl⟩
      · rw [if_neg hlt]
        exact ⟨_, rfl⟩

/-- Cells that can be read are all unused, or one of them is the first used
    one. -/
theorem clear_or_first_used {current m : Nat} (hlim : ∀ i < m, current + i * stride < limit)
    (hread : ∀ i < m, ∃ u, used (current + i * stride) = .ok u) :
    Clear used stride limit current m
      ∨ ∃ k < m, Clear used stride limit current k ∧ used (current + k * stride) = .ok true := by
  induction m with
  | zero => exact Or.inl (clear_zero current)
  | succ m ih =>
      rcases ih (fun i hi => hlim i (by omega)) (fun i hi => hread i (by omega)) with
        hc | ⟨k, hk, hc, hu⟩
      · obtain ⟨u, hu⟩ := hread m (by omega)
        cases u with
        | true => exact Or.inr ⟨m, by omega, hc, hu⟩
        | false =>
            left
            intro j hj
            by_cases hjm : j = m
            · subst hjm
              exact ⟨hlim j (by omega), hu⟩
            · exact hc j (by omega)
      · exact Or.inr ⟨k, by omega, hc, hu⟩

/-- A spoilt window that begins before a window has a first used cell, and
    that cell lies before the window too. -/
theorem exists_first_used {current m : Nat} (htarget : 0 < target)
    (hread : ∀ m' < m, ∃ u, used (current + m' * stride) = .ok u)
    (hspoilt : ¬ Clear used stride limit current target)
    (hwin : Clear used stride limit (current + m * stride) target) :
    ∃ k < m, k < target ∧ Clear used stride limit current k
      ∧ current + k * stride < limit ∧ used (current + k * stride) = .ok true := by
  have hbelow : ∀ i ≤ m, current + i * stride < limit := by
    intro i hi
    have hlast := (hwin 0 htarget).1
    have hle : i * stride ≤ m * stride := Nat.mul_le_mul_right stride hi
    omega
  rcases clear_or_first_used (fun i hi => hbelow i hi.le) hread with hc | ⟨k, hkm, hc, hu⟩
  · -- the cells before the window and the window overlap to a full one
    refine absurd ?_ hspoilt
    intro j hj
    by_cases hjm : j < m
    · exact hc j hjm
    · have hcell := hwin (j - m) (by omega)
      rwa [skip_cells, Nat.add_sub_cancel' (by omega)] at hcell
  · refine ⟨k, hkm, ?_, hc, hbelow k hkm.le, hu⟩
    by_contra hge
    exact hspoilt (hc.mono (by omega))

/-- **COMPLETE.**  The first window of the progression is found, provided the
    cells before it can be read. -/
theorem scan_complete (hstride : 0 < stride) (htarget : 0 < target) {exhausted : ε}
    (m : Nat) :
    ∀ {fuel current : Nat}, limit ≤ current + fuel →
      (∀ m' < m, ∃ u, used (current + m' * stride) = .ok u) →
      (∀ m' < m, ¬ Clear used stride limit (current + m' * stride) target) →
      Clear used stride limit (current + m * stride) target →
      scan used stride limit target exhausted fuel current
        = .ok (.ok (current + m * stride)) := by
  -- induction on the number of positions before the window
  induction m using Nat.strongRecOn with
  | ind m ih =>
      intro fuel current hfuel hread hmin hwin
      have hlt : current < limit := by
        have := (hwin 0 htarget).1
        omega
      obtain ⟨fuel, rfl⟩ : ∃ f, fuel = f + 1 := ⟨fuel - 1, by omega⟩
      rw [scan, if_pos hlt]
      by_cases hm : m = 0
      · subst hm
        rw [Nat.zero_mul, Nat.add_zero] at hwin ⊢
        rw [run_window (by omega) (by omega) hstride hwin, ok_bind]
        simp
      · have hspoilt := hmin 0 (by omega)
        rw [Nat.zero_mul, Nat.add_zero] at hspoilt
        obtain ⟨k, hkm, hkt, hc, hklt, hu⟩ :=
          exists_first_used htarget hread hspoilt hwin
        have hadv : (k + 1) * stride = k * stride + stride := Nat.succ_mul k stride
        rw [run_used (by omega) (by omega) hstride hc hklt hu, ok_bind]
        dsimp only
        rw [if_pos rfl, ih (m - (k + 1)) (by omega) (by omega)]
        · rw [skip_cells, Nat.add_sub_cancel' (by omega)]
        · intro m' hm'
          rw [skip_cells]
          exact hread _ (by omega)
        · intro m' hm'
          rw [skip_cells]
          exact hmin _ (by omega)
        · rw [skip_cells, Nat.add_sub_cancel' (by omega)]
          exact hwin

/-- A cell that cannot be read stops the inner loop. -/
theorem run_panics {p : Panic} {k : Nat} : ∀ {fuel found current : Nat}, found + k < target →
    limit ≤ current + fuel → 0 < stride → Clear used stride limit current k →
    current + k * stride < limit → used (current + k * stride) = .error p →
    run used stride limit target fuel found current = .error p := by
  induction k with
  | zero =>
      intro fuel found current hk hfuel _ _ hlt hu
      rw [Nat.zero_mul, Nat.add_zero] at hlt hu
      obtain ⟨fuel, rfl⟩ : ∃ f, fuel = f + 1 := ⟨fuel - 1, by omega⟩
      rw [run, if_pos ⟨by omega, hlt⟩, hu]
      rfl
  | succ k ih =>
      intro fuel found current hk hfuel hs hc hlt hu
      obtain ⟨⟨hlt₀, hu₀⟩, hc'⟩ := clear_succ.mp hc
      obtain ⟨fuel, rfl⟩ : ∃ f, fuel = f + 1 := ⟨fuel - 1, by omega⟩
      rw [← next_cell] at hlt hu
      rw [run, if_pos ⟨by omega, hlt₀⟩, hu₀, ok_bind, if_neg Bool.false_ne_true,
        ih (by omega) (by omega) hs hc' hlt hu]

/-- **PANIC.**  The scan stops at a cell that cannot be read, unless a window
    ends before it. -/
theorem scan_panics (hstride : 0 < stride) {exhausted : ε} {p : Panic} (m : Nat) :
    ∀ {fuel current : Nat}, limit ≤ current + fuel →
      (∀ m' < m, ∃ u, used (current + m' * stride) = .ok u) →
      (∀ m', m' + target ≤ m → ¬ Clear used stride limit (current + m' * stride) target) →
      current + m * stride < limit → used (current + m * stride) = .error p →
      scan used stride limit target exhausted fuel current = .error p := by
  induction m using Nat.strongRecOn with
  | ind m ih =>
      intro fuel current hfuel hread hmin hlt hu
      have hbelow : ∀ i ≤ m, current + i * stride < limit := by
        intro i hi
        have hle : i * stride ≤ m * stride := Nat.mul_le_mul_right stride hi
        omega
      have hnow : ∀ k ≤ m, Clear used stride limit current k → k < target := by
        intro k hk hc
        by_contra hge
        have hfirst := hmin 0 (by omega)
        rw [Nat.zero_mul, Nat.add_zero] at hfirst
        exact hfirst (hc.mono (by omega))
      obtain ⟨fuel, rfl⟩ : ∃ f, fuel = f + 1 := by
        have h0 := hbelow 0 (by omega)
        exact ⟨fuel - 1, by omega⟩
      rw [scan, if_pos (by have := hbelow 0 (by omega); omega)]
      rcases clear_or_first_used (fun i hi => hbelow i hi.le) hread with hc | ⟨k, hkm, hc, huk⟩
      · have hkt := hnow m (Nat.le_refl m) hc
        rw [run_panics (by omega) (by omega) hstride hc hlt hu]
        rfl
      · have hkt := hnow k hkm.le hc
        have hadv : (k + 1) * stride = k * stride + stride := Nat.succ_mul k stride
        rw [run_used (by omega) (by omega) hstride hc (hbelow k hkm.le) huk, ok_bind]
        dsimp only
        rw [if_pos rfl]
        refine ih (m - (k + 1)) (by omega) (by omega) ?_ ?_ ?_ ?_
        · intro m' hm'
          rw [skip_cells]
          exact hread _ (by omega)
        · intro m' hm'
          rw [skip_cells]
          exact hmin _ (by omega)
        · rw [skip_cells, Nat.add_sub_cancel' (by omega)]
          exact hlt
        · rw [skip_cells, Nat.add_sub_cancel' (by omega)]
          exact hu

end WindowScan
