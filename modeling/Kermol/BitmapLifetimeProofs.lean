import Kermol.BitmapRoomProofs

/-! # What a bitmap allocator can hand out in its lifetime

    `last_allocated` only ever grows: a search starts there and leaves it behind
    what it found, and no other operation touches it (`op_advances`).  So the
    ranges that a run hands out lie one behind the other, whatever is freed or
    flagged in between, and together they are no longer than what lay ahead of
    the search position (`served_once`). -/

namespace KermolBitmapLifetime

open RustEffect KermolFrameAllocator KermolBitmap KermolBitmapScan ByteBits WindowScan

variable {a a' : BitmapAllocator} {bits s : Nat}

/-! ## Operations -/

/-- The operations of `BitmapAllocator` that can change it. -/
inductive Op where
  | alloc (bits : Nat)
  | free (bit : Nat)
  | freeRange (lo hi : Nat)
  | flag (bit : Nat) (f : Bool)
  | flagRange (lo hi : Nat) (f : Bool)
deriving DecidableEq, Repr

/-- One operation, with the range that it hands out: an allocation that returns
    `Ok` hands out one. -/
def Op.run : Op → BitmapAllocator → Panics (List (Nat × Nat) × BitmapAllocator)
  | .alloc bits, a => do
      match ← a.alloc bits with
      | (.error _, a') => return ([], a')
      | (.ok s, a') => return ([(s, bits)], a')
  | .free bit, a => do
      let x ← a.free bit
      return ([], x.2)
  | .freeRange lo hi, a => do
      let x ← a.freeRange lo hi
      return ([], x.2)
  | .flag bit f, a => do
      let x ← a.flag bit f
      return ([], x.2)
  | .flagRange lo hi f, a => do
      let x ← a.flagRange lo hi f
      return ([], x.2)

/-- Operations one after the other, with all ranges handed out. -/
def runOps : List Op → BitmapAllocator → Panics (List (Nat × Nat) × BitmapAllocator)
  | [], a => return ([], a)
  | op :: ops, a => do
      let x ← op.run a
      let y ← runOps ops x.2
      return (x.1 ++ y.1, y.2)

/-! ## The search position -/

/-- A search finds nothing before its start. -/
theorem scan_ahead (h : a.scan bits = .ok (.ok s)) : a.lastAllocated ≤ s := by
  have hsize := a.size_eq
  have hlt := scan_lt_size h
  by_cases hsmall : bits ≤ 16
  · rw [scan_small hsmall hlt, BitmapAllocator.scanBits] at h
    obtain ⟨m, hs, -⟩ := scan_sound (by omega) (by omega) h
    omega
  · rw [scan_big (by omega) hlt] at h
    exact (scanBytes_sound (by omega) hlt h).1.start

/-- `free_range` never returns `Ok`, and leaves the allocator. -/
theorem freeRange_never {lo hi : Nat} {r : Except MemoryError Unit}
    (h : a.freeRange lo hi = .ok (r, a')) : (∃ e, r = .error e) ∧ a' = a := by
  rw [BitmapAllocator.freeRange] at h
  obtain ⟨answer, -, h⟩ := bind_eq_ok.mp h
  cases answer with
  | error e =>
      cases h
      exact ⟨⟨e, rfl⟩, rfl⟩
  | ok clear =>
      cases clear with
      | false =>
          cases h
          exact ⟨⟨_, rfl⟩, rfl⟩
      | true =>
          rcases andThen_cases h with ⟨e, hflag, rfl⟩ | ⟨_, a₁, -, h⟩
          · exact ⟨⟨e, rfl⟩, (BitmapAllocator.flagRange_refused hflag).2.2⟩
          · cases h

theorem flag_shape {bit : Nat} {f : Bool} {r : Except MemoryError Unit}
    (h : a.flag bit f = .ok (r, a')) : BitmapAllocator.SameShape a a' := by
  rw [BitmapAllocator.flag] at h
  split at h
  · split at h
    · cases h
      exact BitmapAllocator.sameShape_write _
    · cases h
  · cases h
    exact .refl a

theorem free_shape {bit : Nat} {r : Except MemoryError Unit}
    (h : a.free bit = .ok (r, a')) : BitmapAllocator.SameShape a a' := by
  rw [BitmapAllocator.free] at h
  split at h
  · cases h
    exact .refl a
  · obtain ⟨answer, -, h⟩ := bind_eq_ok.mp h
    cases answer with
    | error e =>
        cases h
        exact .refl a
    | ok clear =>
        cases clear with
        | false =>
            cases h
            exact .refl a
        | true => exact flag_shape h

theorem flagRange_shape {lo hi : Nat} {f : Bool} {r : Except MemoryError Unit}
    (h : a.flagRange lo hi f = .ok (r, a')) : BitmapAllocator.SameShape a a' := by
  cases r with
  | error e =>
      rw [(BitmapAllocator.flagRange_refused h).2.2]
      exact .refl a
  | ok _ => exact BitmapAllocator.flagRange_shape h

/-- What a run leaves, given the ranges it handed out: they lie one behind the
    other, from the old search position to the new one, and each that is not
    empty is part of the bitmap. -/
structure Advances (a : BitmapAllocator) (granted : List (Nat × Nat)) (a' : BitmapAllocator) :
    Prop where
  length : a'.bitmap.length = a.bitmap.length
  ahead : a.lastAllocated ≤ a'.lastAllocated
  between : ∀ p ∈ granted, a.lastAllocated ≤ p.1 ∧ p.1 + p.2 ≤ a'.lastAllocated
  inside : ∀ p ∈ granted, 0 < p.2 → p.1 + p.2 ≤ a.bitmap.length * 8
  ordered : granted.Pairwise fun p q => p.1 + p.2 ≤ q.1

/-- Nothing handed out, and the search position is not behind. -/
theorem advances_nil (hlength : a'.bitmap.length = a.bitmap.length)
    (hahead : a.lastAllocated ≤ a'.lastAllocated) : Advances a [] a' :=
  ⟨hlength, hahead, nofun, nofun, .nil⟩

theorem advances_of_shape (h : BitmapAllocator.SameShape a a') : Advances a [] a' :=
  advances_nil h.length h.lastAllocated.ge

/-- One run after another. -/
theorem Advances.append {a₁ : BitmapAllocator} {granted granted₁ : List (Nat × Nat)}
    (h : Advances a granted a₁) (h₁ : Advances a₁ granted₁ a') :
    Advances a (granted ++ granted₁) a' where
  length := h₁.length.trans h.length
  ahead := h.ahead.trans h₁.ahead
  between := by
    intro p hp
    rcases List.mem_append.mp hp with hp | hp
    · exact ⟨(h.between p hp).1, (h.between p hp).2.trans h₁.ahead⟩
    · exact ⟨h.ahead.trans (h₁.between p hp).1, (h₁.between p hp).2⟩
  inside := by
    intro p hp hpos
    rcases List.mem_append.mp hp with hp | hp
    · exact h.inside p hp hpos
    · rw [← h.length]
      exact h₁.inside p hp hpos
  ordered := by
    refine List.pairwise_append.mpr ⟨h.ordered, h₁.ordered, fun p hp q hq => ?_⟩
    exact (h.between p hp).2.trans (h₁.between q hq).1

/-- A failed allocation leaves the search position or moves it ahead. -/
theorem alloc_err_advances {e : MemoryError} (h : a.alloc bits = .ok (.error e, a')) :
    Advances a [] a' := by
  refine advances_nil (by rw [alloc_err h]) ?_
  rw [BitmapAllocator.alloc] at h
  obtain ⟨found, hscan, h⟩ := bind_eq_ok.mp h
  cases found with
  | error e =>
      cases h
      exact Nat.le_refl _
  | ok s =>
      dsimp only at h
      split at h
      · rcases andThen_cases h with ⟨e', hflag, -⟩ | ⟨_, a₁, -, h⟩
        · have hstart := scan_ahead hscan
          rw [(flagRange_shape hflag).lastAllocated]
          exact hstart.trans (Nat.le_add_right s bits)
        · cases h
      · cases h

/-- What an allocation hands out lies between the old search position and the
    new one. -/
theorem alloc_ok_advances (h : a.alloc bits = .ok (.ok s, a')) : Advances a [(s, bits)] a' := by
  have hkey : a.lastAllocated ≤ s ∧ a'.lastAllocated = s + bits
      ∧ a'.bitmap.length = a.bitmap.length := by
    rw [BitmapAllocator.alloc] at h
    obtain ⟨found, hscan, h⟩ := bind_eq_ok.mp h
    cases found with
    | error e => cases h
    | ok t =>
        dsimp only at h
        split at h
        · obtain ⟨_, a₁, hflag, h⟩ := andThen_eq_ok h
          cases h
          have hshape := flagRange_shape hflag
          exact ⟨scan_ahead hscan, hshape.lastAllocated, hshape.length⟩
        · cases h
  obtain ⟨hstart, hlast, hlength⟩ := hkey
  refine ⟨hlength, by omega, ?_, ?_, List.pairwise_singleton _ _⟩
  · intro p hp
    cases List.mem_singleton.mp hp
    exact ⟨hstart, hlast.ge⟩
  · intro p hp hpos
    cases List.mem_singleton.mp hp
    exact (alloc_cases hpos h).2.1

/-- **ONE OPERATION** moves the search position behind what it hands out. -/
theorem op_advances {op : Op} {granted : List (Nat × Nat)} (h : op.run a = .ok (granted, a')) :
    Advances a granted a' := by
  cases op with
  | alloc bits =>
      obtain ⟨⟨answer, a₁⟩, halloc, h⟩ := bind_eq_ok.mp h
      cases answer with
      | error e =>
          cases h
          exact alloc_err_advances halloc
      | ok s =>
          cases h
          exact alloc_ok_advances halloc
  | free bit =>
      obtain ⟨⟨answer, a₁⟩, hfree, h⟩ := bind_eq_ok.mp h
      cases h
      exact advances_of_shape (free_shape hfree)
  | freeRange lo hi =>
      obtain ⟨⟨answer, a₁⟩, hfree, h⟩ := bind_eq_ok.mp h
      cases h
      rw [(freeRange_never hfree).2]
      exact advances_of_shape (.refl a)
  | flag bit f =>
      obtain ⟨⟨answer, a₁⟩, hflag, h⟩ := bind_eq_ok.mp h
      cases h
      exact advances_of_shape (flag_shape hflag)
  | flagRange lo hi f =>
      obtain ⟨⟨answer, a₁⟩, hflag, h⟩ := bind_eq_ok.mp h
      cases h
      exact advances_of_shape (flagRange_shape hflag)

/-- **RUN.**  By induction on the operations. -/
theorem run_advances {ops : List Op} : ∀ {a a' : BitmapAllocator} {granted : List (Nat × Nat)},
    runOps ops a = .ok (granted, a') → Advances a granted a' := by
  induction ops with
  | nil =>
      intro a a' granted h
      cases h
      exact advances_of_shape (.refl a)
  | cons op ops ih =>
      intro a a' granted h
      obtain ⟨⟨granted₁, a₁⟩, hop, h⟩ := bind_eq_ok.mp h
      obtain ⟨⟨granted₂, a₂⟩, hrest, h⟩ := bind_eq_ok.mp h
      cases h
      exact (op_advances hop).append (ih hrest)

/-! ## What there is to hand out -/

/-- Ranges one behind the other, from `lo` on and below `hi` where not empty,
    have no more than `hi - lo` bits. -/
theorem sum_le_of_ordered {hi : Nat} {granted : List (Nat × Nat)} :
    ∀ {lo : Nat}, granted.Pairwise (fun p q => p.1 + p.2 ≤ q.1) →
      (∀ p ∈ granted, lo ≤ p.1) → (∀ p ∈ granted, 0 < p.2 → p.1 + p.2 ≤ hi) →
      (granted.map Prod.snd).sum ≤ hi - lo := by
  induction granted with
  | nil => exact fun _ _ _ => Nat.zero_le _
  | cons p granted ih =>
      intro lo hordered hlo hhi
      obtain ⟨hfirst, hordered⟩ := List.pairwise_cons.mp hordered
      have hrest := ih hordered hfirst fun q hq => hhi q (List.mem_cons_of_mem p hq)
      have hstart := hlo p List.mem_cons_self
      have hend := hhi p List.mem_cons_self
      rw [List.map_cons, List.sum_cons]
      omega

/-- **EACH BIT AT MOST ONCE.**  In every run of operations on a bitmap allocator in any
    state, whatever is freed or flagged in between, each range that is handed
    out lies behind the ones before it.  So no bit is handed out twice, and all
    of them together are at most the bits ahead of the search position. -/
theorem served_once (a a' : BitmapAllocator) (ops : List Op) (granted : List (Nat × Nat))
    (h : runOps ops a = .ok (granted, a')) :
    granted.Pairwise (fun p q => p.1 + p.2 ≤ q.1)
      ∧ (∀ p ∈ granted, a.lastAllocated ≤ p.1
        ∧ (0 < p.2 → p.1 + p.2 ≤ 8 * a.bitmap.length))
      ∧ (granted.map Prod.snd).sum ≤ 8 * a.bitmap.length - a.lastAllocated := by
  have hrun := run_advances h
  rw [Nat.mul_comm 8]
  refine ⟨hrun.ordered, fun p hp => ⟨(hrun.between p hp).1, hrun.inside p hp⟩, ?_⟩
  exact sum_le_of_ordered hrun.ordered (fun p hp => (hrun.between p hp).1) hrun.inside

/-- The first byte is allocated from, released and cleared, and not used again. -/
theorem served_once_sample :
    ∃ a', runOps [.alloc 5, .free 0, .flagRange 0 8 false, .alloc 3] sampleBitmap
        = .ok ([(0, 5), (16, 3)], a')
      ∧ ([(0, 5), (16, 3)] : List (Nat × Nat)).Pairwise (fun p q => p.1 + p.2 ≤ q.1) := by
  have hgranted : (runOps [.alloc 5, .free 0, .flagRange 0 8 false, .alloc 3]
      sampleBitmap).map Prod.fst = .ok [(0, 5), (16, 3)] := by
    decide +kernel
  cases h : runOps [.alloc 5, .free 0, .flagRange 0 8 false, .alloc 3] sampleBitmap with
  | error p =>
      rw [h] at hgranted
      cases hgranted
  | ok x =>
      obtain ⟨granted, a'⟩ := x
      rw [h] at hgranted
      cases hgranted
      exact ⟨a', rfl, (served_once sampleBitmap a' _ _ h).1⟩

end KermolBitmapLifetime
