import Kermol.ByteMemoryProofs
import Kermol.PagingControllerProofs

/-! # Typed access to allocated memory

    `AllocatedMemory` is a block of `size` bytes with the flags it was mapped
    with.  Six methods read and write values in it, and one guard stands in
    front of all of them: `handle_errors` compares `offset + size_of::<T>()`
    with the size.

    The guard is off by one and the sum wraps at `2 ^ 64`.  `access_exact_iff`
    says for which accesses the six methods still reach the block and nothing
    else: the last value of the block is refused, and a sum that wraps is caught
    only where the pointer itself is not an address. -/

namespace KermolAllocatedMemory

open RustEffect X86Paging KermolFrameAllocator KermolController ByteMemory ByteBits

/-! ## The code -/

section Code

variable {T : Type} [Layout T]

/-- `handle_errors`, with the wrapping addition of the release profile. -/
def handleErrors (T : Type) [Layout T] (self : AllocatedMemory) (write : Bool) (offset : Nat) :
    Except MemoryError Unit :=
  if !self.flags.contains .PRESENT then .error .pageNotPresent
  else if write && !self.flags.contains .WRITABLE then .error .writeToReadOnly
  else if self.size ≤ (offset + Layout.size T) % 2 ^ 64 then .error .outOfBounds
  else .ok ()

/-- The body of the two reading methods. -/
def load (self : AllocatedMemory) (offset : Nat) (mem : Memory) :
    Panics (Except MemoryError T) :=
  match handleErrors T self false offset with
  | .error e => return .error e
  | .ok () => do
      let p ← self.virt.add offset
      return .ok (ptrRead mem p.addr)

/-- The body of the two writing methods. -/
def store (self : AllocatedMemory) (offset : Nat) (value : T) (mem : Memory) :
    Fallible MemoryError Memory Unit :=
  match handleErrors T self true offset with
  | .error e => .ok (.error e, mem)
  | .ok () => show Panics _ from do
      let p ← self.virt.add offset
      return (.ok (), ptrWrite mem p.addr value)

/-- The body of the two methods that write back. -/
def update (self : AllocatedMemory) (offset : Nat) (f : T → T) (mem : Memory) :
    Fallible MemoryError Memory Unit :=
  match handleErrors T self true offset with
  | .error e => .ok (.error e, mem)
  | .ok () => show Panics _ from do
      let p ← self.virt.add offset
      let originalValue : T := ptrRead mem p.addr
      let newValue := f originalValue
      let p ← self.virt.add offset
      return (.ok (), ptrWrite mem p.addr newValue)

/-- `read` -/
def read (self : AllocatedMemory) (offset : Nat) (mem : Memory) :
    Panics (Except MemoryError T) := load self offset mem

/-- `read_volatile` -/
def readVolatile (self : AllocatedMemory) (offset : Nat) (mem : Memory) :
    Panics (Except MemoryError T) := load self offset mem

/-- `write` -/
def write (self : AllocatedMemory) (offset : Nat) (value : T) (mem : Memory) :
    Fallible MemoryError Memory Unit := store self offset value mem

/-- `write_volatile` -/
def writeVolatile (self : AllocatedMemory) (offset : Nat) (value : T) (mem : Memory) :
    Fallible MemoryError Memory Unit := store self offset value mem

/-- `write_back` -/
def writeBack (self : AllocatedMemory) (offset : Nat) (f : T → T) (mem : Memory) :
    Fallible MemoryError Memory Unit := update self offset f mem

/-- `write_back_volatile` -/
def writeBackVolatile (self : AllocatedMemory) (offset : Nat) (f : T → T) (mem : Memory) :
    Fallible MemoryError Memory Unit := update self offset f mem

end Code

/-! ## The six accesses -/

/-- A call of one of the six methods. -/
inductive Access (T : Type) where
  | read
  | readVolatile
  | write (value : T)
  | writeVolatile (value : T)
  | writeBack (f : T → T)
  | writeBackVolatile (f : T → T)

variable {T : Type} {m : AllocatedMemory} {op : Access T} {offset : Nat} {mem : Memory}

namespace Access

/-- The access needs a writable block. -/
def writes : Access T → Bool
  | .read | .readVolatile => false
  | .write _ | .writeVolatile _ | .writeBack _ | .writeBackVolatile _ => true

/-- The value returned, from the value found. -/
def result : Access T → T → Option T
  | .read, found | .readVolatile, found => some found
  | .write _, _ | .writeVolatile _, _ | .writeBack _, _ | .writeBackVolatile _, _ => none

/-- The value stored, from the value found. -/
def stored : Access T → T → Option T
  | .read, _ | .readVolatile, _ => none
  | .write value, _ | .writeVolatile value, _ => some value
  | .writeBack f, found | .writeBackVolatile f, found => some (f found)

variable [Layout T]

/-- A reading method leaves memory alone. -/
def reading (mem : Memory) (x : Panics (Except MemoryError T)) :
    Fallible MemoryError Memory (Option T) :=
  show Panics _ from do
    let r ← x
    return (r.map some, mem)

/-- A writing method returns no value. -/
def writing (x : Fallible MemoryError Memory Unit) : Fallible MemoryError Memory (Option T) :=
  andThen x fun _ mem => .ok (.ok none, mem)

/-- Call the method. -/
def perform (self : AllocatedMemory) (offset : Nat) :
    Access T → Memory → Fallible MemoryError Memory (Option T)
  | .read, mem => reading mem (KermolAllocatedMemory.read self offset mem)
  | .readVolatile, mem => reading mem (KermolAllocatedMemory.readVolatile self offset mem)
  | .write value, mem => writing (KermolAllocatedMemory.write self offset value mem)
  | .writeVolatile value, mem =>
      writing (KermolAllocatedMemory.writeVolatile self offset value mem)
  | .writeBack f, mem => writing (KermolAllocatedMemory.writeBack self offset f mem)
  | .writeBackVolatile f, mem =>
      writing (KermolAllocatedMemory.writeBackVolatile self offset f mem)

end Access

variable [Layout T]

/-- The flags allow the access. -/
def Granted (m : AllocatedMemory) (op : Access T) : Prop :=
  m.flags.contains .PRESENT = true ∧ (op.writes = true → m.flags.contains .WRITABLE = true)

/-- What `handle_errors` lets through. -/
theorem handleErrors_eq_ok (op : Access T) :
    handleErrors T m op.writes offset = .ok ()
      ↔ Granted m op ∧ (offset + Layout.size T) % 2 ^ 64 < m.size := by
  rw [handleErrors, Granted]
  cases m.flags.contains .PRESENT with
  | false => simp
  | true =>
      cases op.writes with
      | false => simp
      | true =>
          cases m.flags.contains .WRITABLE with
          | false => simp
          | true => simp

/-- What the access leaves behind, at a pointer. -/
def Access.outcome (op : Access T) (mem : Memory) (p : Nat) : Option T × Memory :=
  (op.result (ptrRead mem p),
    match op.stored (ptrRead mem p) with
    | none => mem
    | some value => ptrWrite mem p value)

/-- An outcome behind the guard and a valid pointer. -/
def guarded (m : AllocatedMemory) (write : Bool) (offset : Nat) (mem : Memory)
    (out : Nat → Option T × Memory) : Fallible MemoryError Memory (Option T) :=
  match handleErrors T m write offset, m.virt.add offset with
  | .error e, _ => .ok (.error e, mem)
  | .ok (), .error panic => .error panic
  | .ok (), .ok p => .ok (.ok (out p.addr).1, (out p.addr).2)

theorem reading_load (m : AllocatedMemory) (offset : Nat) (mem : Memory) :
    Access.reading mem (load m offset mem)
      = guarded m false offset mem fun p => (some (ptrRead mem p : T), mem) := by
  rw [load, guarded]
  cases handleErrors T m false offset with
  | error e => rfl
  | ok u =>
      cases m.virt.add offset with
      | error panic => rfl
      | ok p => rfl

theorem writing_store (m : AllocatedMemory) (offset : Nat) (value : T) (mem : Memory) :
    Access.writing (store m offset value mem)
      = guarded (T := T) m true offset mem fun p => (none, ptrWrite mem p value) := by
  rw [store, guarded]
  cases handleErrors T m true offset with
  | error e => rfl
  | ok u =>
      cases m.virt.add offset with
      | error panic => rfl
      | ok p => rfl

theorem writing_update (m : AllocatedMemory) (offset : Nat) (f : T → T) (mem : Memory) :
    Access.writing (update m offset f mem)
      = guarded (T := T) m true offset mem fun p =>
        (none, ptrWrite mem p (f (ptrRead mem p))) := by
  rw [update, guarded]
  cases handleErrors T m true offset with
  | error e => rfl
  | ok u =>
      cases m.virt.add offset with
      | error panic => rfl
      | ok p => rfl

/-- **ONE LEMMA FOR THE SIX.**  Behind the guard and a valid pointer, the value at
    the pointer is read, and the access stores what it has to. -/
theorem perform_eq (op : Access T) (m : AllocatedMemory) (offset : Nat) (mem : Memory) :
    op.perform m offset mem = guarded m op.writes offset mem (op.outcome mem) := by
  cases op with
  | read => exact reading_load m offset mem
  | readVolatile => exact reading_load m offset mem
  | write value => exact writing_store m offset value mem
  | writeVolatile value => exact writing_store m offset value mem
  | writeBack f => exact writing_update m offset f mem
  | writeBackVolatile f => exact writing_update m offset f mem

theorem perform_ok {p : VirtAddr} (hguard : handleErrors T m op.writes offset = .ok ())
    (hp : m.virt.add offset = .ok p) (mem : Memory) :
    op.perform m offset mem
      = .ok (.ok (op.outcome mem p.addr).1, (op.outcome mem p.addr).2) := by
  rw [perform_eq, guarded, hguard, hp]

/-- An access returns `Ok` exactly behind the guard and a canonical pointer. -/
theorem perform_returns_iff :
    (∃ r mem', op.perform m offset mem = .ok (.ok r, mem'))
      ↔ (Granted m op ∧ (offset + Layout.size T) % 2 ^ 64 < m.size)
        ∧ IsCanonical (m.virt.addr + offset) := by
  rw [← handleErrors_eq_ok op]
  constructor
  · rintro ⟨r, mem', h⟩
    rw [perform_eq, guarded] at h
    cases hguard : handleErrors T m op.writes offset with
    | error e =>
        rw [hguard] at h
        cases h
    | ok u =>
        refine ⟨rfl, ?_⟩
        cases hp : m.virt.add offset with
        | error panic =>
            rw [hguard, hp] at h
            cases h
        | ok p =>
            rw [← VirtAddr.add_eq_ok.mp hp]
            exact p.canonical
  · rintro ⟨hguard, hcan⟩
    exact ⟨_, _, perform_ok hguard (VirtAddr.add_eq_ok.mpr
      (show (⟨m.virt.addr + offset, hcan⟩ : VirtAddr).addr = _ from rfl)) mem⟩

/-- What was written is read back: a block that can be written can be read. -/
theorem read_of_write {value : T} {mem' : Memory}
    (h : write m offset value mem = .ok (.ok (), mem')) :
    read m offset mem' = .ok (.ok value) := by
  rw [write, store] at h
  cases hguard : handleErrors T m true offset with
  | error e =>
      rw [hguard] at h
      cases h
  | ok u =>
      rw [hguard] at h
      obtain ⟨p, hp, h⟩ := bind_eq_ok.mp h
      cases h
      obtain ⟨⟨hpresent, -⟩, hfits⟩ := (handleErrors_eq_ok (.write value)).mp hguard
      have hread : handleErrors T m false offset = .ok () :=
        (handleErrors_eq_ok .read).mpr ⟨⟨hpresent, nofun⟩, hfits⟩
      rw [read, load, hread]
      dsimp only
      rw [hp, ok_bind, ptrRead_ptrWrite]
      rfl

/-! ## Reaching the block and nothing else -/

/-- The access returns `Ok` exactly when the flags allow it and the value lies in
    the block, and then touches only bytes of the block. -/
structure ReachesExactly (m : AllocatedMemory) (op : Access T) (offset : Nat) (mem : Memory) :
    Prop where
  returns : (∃ r mem', op.perform m offset mem = .ok (.ok r, mem'))
    ↔ Granted m op ∧ offset + Layout.size T ≤ m.size
  inside : TouchesOnly m.virt.addr m.size (op.perform m offset) mem

/-- The condition on the access: the flags forbid it; or the value does not end
    with the block, the pointer of a value in the block is an address, and that of
    a value whose end wraps into the block is none. -/
def GuardHolds (m : AllocatedMemory) (op : Access T) (offset : Nat) : Prop :=
  Granted m op →
    offset + Layout.size T ≠ m.size
      ∧ (offset + Layout.size T < m.size → IsCanonical (m.virt.addr + offset))
      ∧ (2 ^ 64 ≤ offset + Layout.size T → offset + Layout.size T < 2 ^ 64 + m.size →
        ¬ IsCanonical (m.virt.addr + offset))

/-- A value in the block touches only the block. -/
theorem touchesOnly_perform (hin : offset + Layout.size T ≤ m.size) :
    TouchesOnly m.virt.addr m.size (op.perform m offset) mem := by
  intro r mem' h
  obtain ⟨hguard, hcan⟩ := perform_returns_iff.mp ⟨r, mem', h⟩
  have hp : m.virt.add offset = .ok ⟨m.virt.addr + offset, hcan⟩ := VirtAddr.add_eq_ok.mpr rfl
  refine touchesOnly_ptr (p := m.virt.addr + offset) op.result op.stored
    (perform_ok ((handleErrors_eq_ok op).mpr hguard) hp) ?_ r mem' h
  rintro q ⟨hlo, hhi⟩
  exact ⟨by omega, by omega⟩

/-- The comparison with a wrapped sum, against the one that was meant. -/
theorem wrapped_guard_iff {last size : Nat} (valid : Prop) (hlast : last < 2 ^ 65)
    (hsize : size < 2 ^ 64) :
    (last % 2 ^ 64 < size ∧ valid ↔ last ≤ size)
      ↔ last ≠ size ∧ (last < size → valid)
        ∧ (2 ^ 64 ≤ last → last < 2 ^ 64 + size → ¬ valid) := by
  by_cases hwrap : last < 2 ^ 64
  · rw [Nat.mod_eq_of_lt hwrap]
    constructor
    · intro h
      refine ⟨?_, fun hlt => (h.mpr hlt.le).2, fun hge => by omega⟩
      rintro rfl
      exact absurd (h.mpr (Nat.le_refl _)).1 (Nat.lt_irrefl _)
    · rintro ⟨hne, hvalid, -⟩
      constructor
      · exact fun h => h.1.le
      · exact fun hle => ⟨by omega, hvalid (by omega)⟩
  · -- the sum lies behind every block, so it must not get through
    have hmod : last % 2 ^ 64 = last - 2 ^ 64 := by omega
    rw [hmod]
    constructor
    · intro h
      refine ⟨by omega, fun hlt => by omega, fun _ hlt hvalid => ?_⟩
      have hle := h.mp ⟨by omega, hvalid⟩
      omega
    · rintro ⟨-, -, hnot⟩
      constructor
      · rintro ⟨hlt, hvalid⟩
        exact absurd hvalid (hnot (by omega) (by omega))
      · intro hle
        omega

/-- **TYPED ACCESS, EXACTLY.**  For every block, every type and every offset, each
    of the six methods reaches the block and nothing else if and only if the
    guard holds for it. -/
theorem access_exact_iff (m : AllocatedMemory) (op : Access T) (offset : Nat) (mem : Memory)
    (hsize : m.size < 2 ^ 64) (hoffset : offset < 2 ^ 64) :
    ReachesExactly m op offset mem ↔ GuardHolds m op offset := by
  have hlast : offset + Layout.size T < 2 ^ 65 := by
    have := Layout.size_lt (T := T)
    omega
  have hmeant := wrapped_guard_iff (IsCanonical (m.virt.addr + offset)) hlast hsize
  constructor
  · rintro ⟨hok, -⟩ hgranted
    rw [perform_returns_iff, and_assoc] at hok
    refine hmeant.mp ⟨fun h => (hok.mp ⟨hgranted, h⟩).2, fun h => (hok.mpr ⟨hgranted, h⟩).2⟩
  · intro hguard
    have hok : (∃ r mem', op.perform m offset mem = .ok (.ok r, mem'))
        ↔ Granted m op ∧ offset + Layout.size T ≤ m.size := by
      rw [perform_returns_iff, and_assoc]
      exact and_congr_right fun hgranted => hmeant.mpr (hguard hgranted)
    refine ⟨hok, fun r mem' h => ?_⟩
    exact touchesOnly_perform (hok.mp ⟨r, mem', h⟩).2 r mem' h

/-- For a block in the kernel's own area every offset inside gives an address and no
    offset with a wrapped end does, so the condition is about the last value alone. -/
theorem guardHolds_kernel_iff (hvirt : PAGE_ALLOCATOR_START.addr ≤ m.virt.addr)
    (hend : m.virt.addr + m.size ≤ 2 ^ 64) :
    GuardHolds m op offset ↔ (Granted m op → offset + Layout.size T ≠ m.size) := by
  have ht := Layout.size_lt (T := T)
  rw [show PAGE_ALLOCATOR_START.addr = 0xFFFFE00000000000 from rfl] at hvirt
  constructor
  · exact fun h hgranted => (h hgranted).1
  · intro h hgranted
    refine ⟨h hgranted, fun hlt => Or.inr ⟨by omega, by omega⟩, fun hge _ hcan => ?_⟩
    rcases hcan with hlow | ⟨-, hhigh⟩
    · omega
    · omega

/-- A byte, as one byte. -/
instance : Layout Byte where
  size := 1
  size_lt := by decide
  encode := fun b => [b]
  decode := fun bytes => bytes.getD 0 0#8
  length_encode := fun _ => rfl
  decode_encode := fun _ => rfl

/-- A page as the kernel allocates it. -/
def samplePage : AllocatedMemory :=
  ⟨PAGE_ALLOCATOR_START, KermolPageTableRun.sampleFrame, 4096, KermolPageTable.flagsRw, true⟩

/-- The last byte but one of a page is reached, and read back. -/
theorem access_exact_iff_sample :
    (ReachesExactly samplePage (.write 7#8) 4094 fun _ => 0#8)
      ∧ ∃ mem', write samplePage 4094 7#8 (fun _ => 0#8) = .ok (.ok (), mem')
        ∧ read samplePage 4094 mem' = .ok (.ok 7#8) := by
  have hguard : GuardHolds samplePage (.write 7#8) 4094 :=
    (guardHolds_kernel_iff (by decide) (by decide)).mpr fun _ => by decide
  have hreaches := (access_exact_iff samplePage (.write 7#8) 4094 (fun _ => 0#8) (by decide)
    (by decide)).mpr hguard
  obtain ⟨r, mem', hok⟩ := hreaches.returns.mpr ⟨⟨by decide, by decide⟩, by decide⟩
  rw [Access.perform, Access.writing] at hok
  obtain ⟨_, mem₁, hwrite, -⟩ := andThen_eq_ok hok
  exact ⟨hreaches, mem₁, hwrite, read_of_write hwrite⟩

/-- The last byte of a page can be neither read nor written. -/
theorem last_byte_is_refused :
    read (T := Byte) samplePage 4095 (fun _ => 0#8) = .ok (.error .outOfBounds)
      ∧ (Access.read (T := Byte)).perform samplePage 4095 (fun _ => 0#8)
        = .ok (.error .outOfBounds, fun _ => 0#8)
      ∧ Granted samplePage (Access.read (T := Byte)) ∧ 4095 + Layout.size Byte ≤ samplePage.size
      ∧ ¬ ReachesExactly samplePage (Access.read (T := Byte)) 4095 fun _ => 0#8 := by
  have hrefused : (Access.read (T := Byte)).perform samplePage 4095 (fun _ => 0#8)
      = .ok (.error .outOfBounds, fun _ => 0#8) := rfl
  have hgranted : Granted samplePage (Access.read (T := Byte)) := ⟨by decide, by decide⟩
  refine ⟨rfl, hrefused, hgranted, by decide, fun h => ?_⟩
  obtain ⟨r, mem', hok⟩ := h.returns.mpr ⟨hgranted, by decide⟩
  cases hrefused.symm.trans hok

end KermolAllocatedMemory
