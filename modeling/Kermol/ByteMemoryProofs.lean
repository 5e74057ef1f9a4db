import Kermol.ByteBitsProofs
import Kermol.FallibleProofs
import Kermol.RasterProofs

/-! # Typed accesses to byte memory

    Memory is one byte for each address.  A value of a type lies in memory as
    its bytes; `Layout` gives their number and the two conversions, and
    `ptrRead` and `ptrWrite` are the accesses through a raw pointer.

    `TouchesOnly` says that an access neither changes a byte outside a block nor
    depends on one: running it on any memory with the same block does the same
    to the block.  Accesses through one pointer touch the bytes of the value
    (`touchesOnly_ptr`).

    A slice is values one behind the other.  To read a slice, change one value
    and write it back is to write that value (`sliceWrite_set`), if every byte
    pattern is a value.

    Through a translation of addresses bytes go to other places, or nowhere;
    where the places lie side by side it is as if they were written there
    (`storeBytes_linear`). -/

namespace ByteMemory

open RustEffect ByteBits Raster

/-- One byte for each address. -/
abbrev Memory := Nat → Byte

/-- `n` bytes from address `p` on. -/
def readBytes (mem : Memory) (p n : Nat) : List Byte := (List.range n).map fun i => mem (p + i)

/-- Memory with `bytes` written from address `p` on. -/
def writeBytes (mem : Memory) (p : Nat) (bytes : List Byte) : Memory :=
  fun q => if p ≤ q ∧ q < p + bytes.length then bytes.getD (q - p) 0#8 else mem q

/-- How values of a type lie in memory: `size_of::<T>()` bytes, at most
    `isize::MAX`. -/
class Layout (T : Type) where
  size : Nat
  size_lt : size < 2 ^ 63
  encode : T → List Byte
  decode : List Byte → T
  length_encode : ∀ v, (encode v).length = size
  decode_encode : ∀ v, decode (encode v) = v

variable {T : Type} [Layout T]

/-- `ptr::read`, and `ptr::read_volatile`: without another writer they read the
    same bytes. -/
def ptrRead (mem : Memory) (p : Nat) : T := Layout.decode (readBytes mem p (Layout.size T))

/-- `ptr::write` and `ptr::write_volatile` -/
def ptrWrite (mem : Memory) (p : Nat) (value : T) : Memory :=
  writeBytes mem p (Layout.encode value)

/-- The address lies in the block of `n` bytes from `lo` on. -/
def InBlock (lo n q : Nat) : Prop := lo ≤ q ∧ q < lo + n

/-- Two memories hold the same bytes in the block. -/
def AgreeOn (lo n : Nat) (mem mem' : Memory) : Prop := ∀ q, InBlock lo n q → mem' q = mem q

theorem AgreeOn.mono {lo n lo' n' : Nat} {mem mem' : Memory} (h : AgreeOn lo n mem mem')
    (hsub : ∀ q, InBlock lo' n' q → InBlock lo n q) : AgreeOn lo' n' mem mem' :=
  fun q hq => h q (hsub q hq)

theorem ptrRead_congr {p : Nat} {mem mem' : Memory} (h : AgreeOn p (Layout.size T) mem mem') :
    (ptrRead mem' p : T) = ptrRead mem p := by
  have hbytes : readBytes mem' p (Layout.size T) = readBytes mem p (Layout.size T) := by
    refine List.map_congr_left fun i hi => h _ ?_
    have hlt := List.mem_range.mp hi
    exact ⟨by omega, by omega⟩
  rw [ptrRead, ptrRead, hbytes]

/-- A write changes no byte but those of the value. -/
theorem ptrWrite_outside {p q : Nat} (mem : Memory) (value : T)
    (h : ¬ InBlock p (Layout.size T) q) : ptrWrite mem p value q = mem q := by
  rw [ptrWrite, writeBytes, Layout.length_encode]
  exact if_neg h

/-- Byte `b` of the value written. -/
theorem ptrWrite_byte {b : Nat} (mem : Memory) (p : Nat) (value : T) (hb : b < Layout.size T) :
    ptrWrite mem p value (p + b) = (Layout.encode value).getD b 0#8 := by
  rw [ptrWrite, writeBytes, Layout.length_encode, if_pos ⟨by omega, by omega⟩,
    Nat.add_sub_cancel_left]

/-- What is written there does not depend on memory. -/
theorem ptrWrite_inside {p q : Nat} (mem mem' : Memory) (value : T)
    (h : InBlock p (Layout.size T) q) : ptrWrite mem' p value q = ptrWrite mem p value q := by
  rw [ptrWrite, ptrWrite, writeBytes, writeBytes, Layout.length_encode]
  exact (if_pos h).trans (if_pos h).symm

/-- A value is read back as it was written. -/
theorem ptrRead_ptrWrite (mem : Memory) (p : Nat) (value : T) :
    ptrRead (ptrWrite mem p value) p = value := by
  have hbytes : readBytes (ptrWrite mem p value) p (Layout.size T) = Layout.encode value := by
    refine List.ext_getElem ?_ fun i h₁ h₂ => ?_
    · rw [readBytes, List.length_map, List.length_range, Layout.length_encode]
    · have hlt : i < Layout.size T := by rwa [Layout.length_encode] at h₂
      simp only [readBytes, List.getElem_map, List.getElem_range]
      rw [ptrWrite, writeBytes, Layout.length_encode, if_pos ⟨by omega, by omega⟩,
        Nat.add_sub_cancel_left, List.getD_eq_getElem _ _ h₂]
  rw [ptrRead, hbytes, Layout.decode_encode]

/-- The access returns `Ok` on `mem` only by touching bytes of the block: no byte
    outside it changes, and no byte outside it matters. -/
def TouchesOnly {ε α : Type} (lo n : Nat) (act : Memory → Fallible ε Memory α)
    (mem : Memory) : Prop :=
  ∀ r mem', act mem = .ok (.ok r, mem') →
    (∀ q, ¬ InBlock lo n q → mem' q = mem q)
      ∧ ∀ mem₂, AgreeOn lo n mem mem₂ →
        ∃ mem₂', act mem₂ = .ok (.ok r, mem₂') ∧ AgreeOn lo n mem' mem₂'

/-- An access that reads and writes at most the value at one pointer of the
    block. -/
theorem touchesOnly_ptr {ε α : Type} {lo n p : Nat} {mem : Memory}
    {act : Memory → Fallible ε Memory α} (result : T → α) (stored : T → Option T)
    (hact : ∀ mem, act mem = .ok (.ok (result (ptrRead mem p)),
      match stored (ptrRead mem p) with
      | none => mem
      | some value => ptrWrite mem p value))
    (hsub : ∀ q, InBlock p (Layout.size T) q → InBlock lo n q) :
    TouchesOnly lo n act mem := by
  intro r mem' h
  rw [hact mem] at h
  cases h
  refine ⟨fun q hq => ?_, fun mem₂ hagree => ?_⟩
  · cases stored (ptrRead mem p) with
    | none => rfl
    | some value => exact ptrWrite_outside mem value fun hin => hq (hsub q hin)
  · have hread : (ptrRead mem₂ p : T) = ptrRead mem p := ptrRead_congr (hagree.mono hsub)
    rw [hact mem₂, hread]
    refine ⟨_, rfl, fun q hq => ?_⟩
    cases stored (ptrRead mem p) with
    | none => exact hagree q hq
    | some value =>
        by_cases hin : InBlock p (Layout.size T) q
        · exact ptrWrite_inside mem mem₂ value hin
        · show ptrWrite mem₂ p value q = ptrWrite mem p value q
          rw [ptrWrite_outside mem₂ value hin, ptrWrite_outside mem value hin]
          exact hagree q hq

/-! ## Slices -/

/-- Every byte pattern is a value. -/
class Plain (T : Type) [Layout T] : Prop where
  encode_decode : ∀ bytes : List Byte, bytes.length = Layout.size T →
    Layout.encode (Layout.decode bytes : T) = bytes

/-- The `n` values of a slice from address `p` on. -/
def sliceRead (mem : Memory) (p n : Nat) : List T :=
  (List.range n).map fun i => ptrRead mem (p + i * Layout.size T)

/-- Memory with the values of a slice from address `p` on. -/
def sliceWrite (mem : Memory) (p : Nat) (values : List T) : Memory :=
  writeBytes mem p (values.flatMap Layout.encode)

@[simp] theorem length_sliceRead (mem : Memory) (p n : Nat) :
    (sliceRead mem p n : List T).length = n := by
  rw [sliceRead, List.length_map, List.length_range]

theorem getElem_sliceRead {mem : Memory} {p n i : Nat}
    (h : i < (sliceRead mem p n : List T).length) :
    (sliceRead mem p n : List T)[i] = ptrRead mem (p + i * Layout.size T) := by
  simp only [sliceRead, List.getElem_map, List.getElem_range]

/-- Byte `b` of what a pointer reads. -/
theorem getD_encode_ptrRead [Plain T] {b : Nat} (mem : Memory) (p : Nat)
    (hb : b < Layout.size T) : (Layout.encode (ptrRead mem p : T)).getD b 0#8 = mem (p + b) := by
  have hlen : (readBytes mem p (Layout.size T)).length = Layout.size T := by
    rw [readBytes, List.length_map, List.length_range]
  rw [ptrRead, Plain.encode_decode _ hlen, List.getD_eq_getElem _ _ (by omega)]
  simp only [readBytes, List.getElem_map, List.getElem_range]

variable {p q n i b : Nat} {values : List T}

/-- A slice changes no byte but those of its values. -/
theorem sliceWrite_outside (mem : Memory)
    (h : ¬ InBlock p (Layout.size T * values.length) q) : sliceWrite mem p values q = mem q := by
  rw [sliceWrite, writeBytes, length_flatMap_rows Layout.length_encode]
  exact if_neg h

/-- Byte `b` of value `i`. -/
theorem sliceWrite_byte (mem : Memory) (hi : i < values.length) (hb : b < Layout.size T) :
    sliceWrite mem p values (p + index (Layout.size T) b i)
      = (Layout.encode values[i]).getD b 0#8 := by
  have hlt := index_lt hb hi
  rw [sliceWrite, writeBytes, length_flatMap_rows Layout.length_encode,
    if_pos ⟨by omega, by omega⟩, Nat.add_sub_cancel_left,
    getD_flatMap_rows Layout.length_encode hb _ hi]

/-- An address of a slice, by its value and the byte of it. -/
theorem inBlock_slice (h : InBlock p (Layout.size T * n) q) :
    ∃ i < n, ∃ b < Layout.size T, q = p + index (Layout.size T) b i := by
  obtain ⟨hlo, hhi⟩ := h
  have hpos : 0 < Layout.size T := by
    refine Nat.pos_of_ne_zero fun hzero => ?_
    rw [hzero, Nat.zero_mul] at hhi
    omega
  refine ⟨(q - p) / Layout.size T, Nat.div_lt_of_lt_mul (by omega), (q - p) % Layout.size T,
    Nat.mod_lt _ hpos, ?_⟩
  rw [index, Nat.mod_add_div']
  omega

/-- **ONE VALUE OF A SLICE.**  To change it is to write it. -/
theorem sliceWrite_set [Plain T] (mem : Memory) (hi : i < n) (value : T) :
    sliceWrite mem p ((sliceRead mem p n).set i value)
      = ptrWrite mem (p + i * Layout.size T) value := by
  have hlen : ((sliceRead mem p n).set i value).length = n := by
    rw [List.length_set, length_sliceRead]
  funext q
  by_cases hin : InBlock p (Layout.size T * n) q
  · obtain ⟨j, hj, b, hb, rfl⟩ := inBlock_slice hin
    rw [sliceWrite_byte mem (by rwa [hlen]) hb, List.getElem_set]
    by_cases hij : i = j
    · subst hij
      rw [if_pos rfl, index, Nat.add_comm b, ← Nat.add_assoc, ptrWrite_byte mem _ value hb]
    · have hne : ¬ InBlock (p + i * Layout.size T) (Layout.size T)
          (p + index (Layout.size T) b j) := by
        rintro ⟨hlo, hhi⟩
        have hsame : j = i := by
          have hdiv : index (Layout.size T) b j / Layout.size T = j := index_div hb
          rw [← hdiv]
          refine Nat.div_eq_of_lt_le (by omega) ?_
          rw [Nat.succ_mul]
          omega
        exact hij hsame.symm
      rw [if_neg hij, getElem_sliceRead, getD_encode_ptrRead mem _ hb,
        ptrWrite_outside mem value hne, index, Nat.add_assoc, Nat.add_comm b]
  · have hne : ¬ InBlock (p + i * Layout.size T) (Layout.size T) q := by
      rintro ⟨hlo, hhi⟩
      have hrow : (i + 1) * Layout.size T ≤ n * Layout.size T := Nat.mul_le_mul_right _ hi
      rw [Nat.succ_mul, Nat.mul_comm n] at hrow
      exact hin ⟨by omega, by omega⟩
    rw [sliceWrite_outside mem (by rwa [hlen]), ptrWrite_outside mem value hne]

/-! ## Through a translation of addresses -/

/-- Store bytes from address `p` on, each at the place that `place` gives.  An address
    without a place is a fault. -/
def storeBytes (place : Nat → Option Nat) : Nat → List Byte → Memory → Option Memory
  | _, [], mem => some mem
  | p, byte :: bytes, mem =>
      (place p).bind fun q => storeBytes place (p + 1) bytes (writeBytes mem q [byte])

/-- One byte, and those behind it. -/
theorem writeBytes_cons (mem : Memory) (p : Nat) (byte : Byte) (bytes : List Byte) :
    writeBytes (writeBytes mem p [byte]) (p + 1) bytes = writeBytes mem p (byte :: bytes) := by
  funext q
  simp only [writeBytes, List.length_cons, List.length_nil]
  by_cases hfirst : q = p
  · subst hfirst
    rw [if_neg (by omega), if_pos (by omega), if_pos (by omega), Nat.sub_self]
    rfl
  · by_cases hrest : p + 1 ≤ q ∧ q < p + 1 + bytes.length
    · have hsub : q - p = q - (p + 1) + 1 := by omega
      rw [if_pos hrest, if_pos (by omega), hsub]
      rfl
    · rw [if_neg hrest, if_neg (by omega), if_neg (by omega)]

/-- **BYTES SIDE BY SIDE** are stored side by side, if their places are. -/
theorem storeBytes_linear {place : Nat → Option Nat} (bytes : List Byte) :
    ∀ {p q : Nat} {mem : Memory}, (∀ i < bytes.length, place (p + i) = some (q + i)) →
      storeBytes place p bytes mem = some (writeBytes mem q bytes) := by
  induction bytes with
  | nil =>
      intro p q mem _
      rw [storeBytes]
      congr 1
      funext a
      exact (if_neg (by simp)).symm
  | cons byte bytes ih =>
      intro p q mem hplace
      have hfirst : place p = some q := hplace 0 (Nat.succ_pos _)
      have hrest : ∀ i < bytes.length, place (p + 1 + i) = some (q + 1 + i) := by
        intro i hi
        rw [Nat.add_assoc, Nat.add_comm 1, Nat.add_assoc, Nat.add_comm 1]
        exact hplace (i + 1) (Nat.succ_lt_succ hi)
      rw [storeBytes, hfirst, Option.bind_some, ih hrest, writeBytes_cons]

end ByteMemory
