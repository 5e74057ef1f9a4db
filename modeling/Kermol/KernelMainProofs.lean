import Kermol.DisplaySpaceProofs
import Kermol.ExceptionProofs

/-! # The whole boot

    `kernel_main` asks the boot loader for its answers one after the other, and an
    answer that is missing is a panic; so is everything that `init_memory` does
    not like.  Whatever was printed before the panic is on the devices, and the
    panic is reported there.

    `kernelMain_up_iff` follows a boot that nothing interrupts to its end, for
    every set of answers: it always ends, the serial port has its two lines
    exactly if the answers are as they have to be, else a report, and the memory
    map is on the screen as soon as it was asked for. -/

namespace KermolMain

open RustEffect X86Paging KermolPageTable KermolFrameBitmap KermolFramebuffer KermolAddressSpace
open KermolPageTableRun
open KermolInitMemory KermolPrepared KermolBootTables KermolBootReached KermolDisplayMemory
open ByteMemory Preemption KermolVgaText KermolPanic KermolBootLog KermolException TextFormat

/-! ## The code -/

/-- Limine's answers, where there are any, and what `_start` and the linker add. -/
structure Answers where
  framebuffers : Option (List Framebuffer)
  bootloaderInfo : Option (String × String)
  memoryMap : Option (List MemoryRegionInfo)
  hhdm : Option HhdmResponse
  kernelAddr : Option KernelAddress
  image : KernelImage
  entryStackPointer : Nat

/-- What the compiler puts into a panic: the place of the call, from its message; the message
    of a panic inside `init_memory`, or of the one that its error makes; and that of a
    framebuffer with more pixels than there are addresses. -/
structure Texts where
  location : String → String
  memory : String
  framebuffer : String

namespace Texts

def panic (self : Texts) (message : String) : PanicInfo := panicInfo (self.location message) message

end Texts

/-- `{:?}` of a `LinearFramebufferError` -/
def errorName : LinearFramebufferError → String
  | .unsupportedPixelDepth => "UnsupportedPixelDepth"
  | .outOfBounds => "OutOfBounds"

namespace Answers

variable (self : Answers) (t : Texts)

/-- `init_kwriter`, up to `call_once`; `display` is what the framebuffer's memory holds. -/
def screen (display : Memory) : Except PanicInfo Unit :=
  match self.framebuffers with
  | none => .error (t.panic "Bootloader provided no response to the framebuffer request")
  | some [] => .error (t.panic "no framebuffers")
  | some (framebuffer :: _) =>
      match KermolDisplayMemory.new framebuffer display with
      | .ok (.ok _) => .ok ()
      | .ok (.error e) =>
          .error (t.panic ("couldn't initialize linear framebuffer: " ++ errorName e))
      | .error _ => .error (t.panic t.framebuffer)

/-- What `init_memory` reads, if it is all there. -/
def bootInfo : Option BootInfo := do
  return ⟨← self.memoryMap, ← self.hhdm, ← self.kernelAddr, self.image, self.entryStackPointer⟩

/-- `init_memory` returns `Ok`.  Without the address of the kernel it panics. -/
def memoryUp (mem : PhysMem) : Bool :=
  match self.bootInfo with
  | none => false
  | some b =>
      match initMemory b mem with
      | .ok (.ok _) => true
      | _ => false

/-- `init_memory` as `kernel_main` calls it: what is printed, and the panic that it comes to. -/
def initMemoryCalls (mem : PhysMem) : List Call × Option PanicInfo :=
  match self.memoryMap, self.hhdm with
  | none, _ => ([], some (t.panic "Memory map request had no response"))
  | some _, none => ([], some (t.panic "HHDM request had no response"))
  | some rammapEntries, some _ =>
      if self.memoryUp mem then (initMemoryLog rammapEntries, none)
      else (logRamMap rammapEntries, some (t.panic t.memory))

/-- `kernel_main` behind `init_kwriter`. -/
def kernelMainCalls (mem : PhysMem) : List Call × Option PanicInfo :=
  match self.bootloaderInfo with
  | none => ([], some (t.panic "Bootloader Info was not provided"))
  | some info =>
      let memory := self.initMemoryCalls t mem
      match memory.2 with
      | some panicked => (greetingCalls info ++ memory.1, some panicked)
      | none => (greetingCalls info ++ (memory.1 ++ [.serialPrint "Hi\r\n"]), none)

/-- A program that ends, or calls the panic handler. -/
def ending : Option PanicInfo → List KernelOp
  | none => []
  | some info => [.enter info]

/-- `kernel_main` -/
def kernelMain (mem : PhysMem) (display : Memory) : List KernelOp :=
  match self.screen t display with
  | .error info => ending (some info)
  | .ok _ =>
      let main := self.kernelMainCalls t mem
      program main.1 ++ ending main.2

end Answers

/-! ## A program and its ending -/

section Ending

/-- What a report adds to the output of a device. -/
def report (d : Device) : Option PanicInfo → List TextOp
  | none => []
  | some info =>
      match d with
      | .serial => serialReport info
      | .console => consoleReport info

variable {m : KernelMachine} {info : PanicInfo}

/-- A panic with no lock taken comes to its end, and is reported. -/
theorem panic_ends (hs : m.shared = boot ∨ m.shared = made ∨ m.shared = ready)
    (hlocked : ∀ d, m.locked d = false) (info : PanicInfo) :
    ∃ n, ∀ k, n ≤ k → Halted ((exec kernel)^[k] (raise info m))
      ∧ ((exec kernel)^[k] (raise info m)).out .serial = m.out .serial ++ serialReport info
      ∧ ((exec kernel)^[k] (raise info m)).out .console
        = if m.shared.panicLevel.toNat = 1 then m.out .console ++ consoleReport info
          else m.out .console := by
  obtain ⟨n₁, hhalted⟩ := (raise_halts_iff hs info).mpr ⟨hlocked .serial, fun _ => hlocked .console⟩
  obtain ⟨n₂, hout⟩ := raise_settles hs info
  refine ⟨max n₁ n₂, fun k hk => ?_⟩
  obtain ⟨hserial, hconsole⟩ := hout k (le_of_max_le_right hk)
  refine ⟨?_, ?_, ?_⟩
  · rw [hhalted.stays kernel (le_of_max_le_left hk)]
    exact hhalted
  · rw [hserial, hlocked]
    rfl
  · rw [hconsole, hlocked, hlocked]
    simp only [and_true]

/-- **A PROGRAM AND ITS ENDING.** -/
theorem program_ends (calls : List Call) (panicked : Option PanicInfo) :
    ∃ n, ∀ k, n ≤ k →
      Halted ((exec kernel)^[k] (start boot (program calls ++ Answers.ending panicked)))
      ∧ ∀ d, ((exec kernel)^[k] (start boot (program calls ++ Answers.ending panicked))).out d
        = printed calls d ++ report d panicked := by
  have hsettle : settle kernel (fun _ => false) boot (program calls)
      = (ready, calls.map message, []) := settle_calls calls
  obtain ⟨n, hn⟩ := settles_append kernel
    (m := start boot (program calls ++ Answers.ending panicked)) rfl (by
      show Stops (settle kernel (fun _ => false) boot (program calls)).2.2
      rw [hsettle]
      trivial)
  -- the calls are done, and only the ending is left
  have hcalls : (exec kernel)^[n] (start boot (program calls ++ Answers.ending panicked))
      = ⟨ready, fun _ => false, printed calls, [⟨none, Answers.ending panicked⟩]⟩ := by
    rw [hn]
    show Machine.mk (settle kernel (fun _ => false) boot (program calls)).1 (fun _ => false)
      (append (settle kernel (fun _ => false) boot (program calls)).2.1 fun _ => [])
      [⟨none, (settle kernel (fun _ => false) boot (program calls)).2.2 ++ _⟩] = _
    rw [hsettle]
    have hprinted : append (calls.map message) (fun _ => []) = printed calls :=
      funext fun d => (append_messages calls _ d).trans (List.nil_append _)
    rw [hprinted]
    rfl
  cases panicked with
  | none =>
      have hhalted : Halted ((exec kernel)^[n]
          (start boot (program calls ++ Answers.ending none))) := ⟨[], by rw [hcalls]; rfl⟩
      refine ⟨n, fun k hk => ?_⟩
      rw [hhalted.stays kernel hk]
      refine ⟨hhalted, fun d => ?_⟩
      rw [hcalls]
      exact (List.append_nil _).symm
  | some info =>
      obtain ⟨n', hends⟩ := panic_ends (m := ⟨ready, fun _ => false, printed calls, []⟩)
        (Or.inr (Or.inr rfl)) (fun _ => rfl) info
      refine ⟨n' + n, fun k hk => ?_⟩
      obtain ⟨j, rfl⟩ := Nat.exists_eq_add_of_le' hk
      rw [← Nat.add_assoc, Function.iterate_add_apply, hcalls]
      obtain ⟨hhalted, hserial, hconsole⟩ := hends (j + n') (Nat.le_add_left n' j)
      refine ⟨hhalted, fun d => ?_⟩
      cases d with
      | serial => exact hserial
      | console => exact hconsole

/-- Without a screen only the serial port has the report. -/
theorem early_panic_ends (info : PanicInfo) :
    ∃ n, ∀ k, n ≤ k →
      Halted ((exec kernel)^[k] (start boot (Answers.ending (some info))))
      ∧ ((exec kernel)^[k] (start boot (Answers.ending (some info)))).out .serial
        = serialReport info
      ∧ ((exec kernel)^[k] (start boot (Answers.ending (some info)))).out .console = [] :=
  panic_ends (m := ⟨boot, fun _ => false, fun _ => [], []⟩) (Or.inl rfl) (fun _ => rfl) info

end Ending

/-! ## What `kernel_main` comes to -/

namespace Answers

/-- There is a framebuffer that `init_kwriter` takes. -/
def ScreenOk (a : Answers) : Prop :=
  ∃ framebuffer rest, a.framebuffers = some (framebuffer :: rest) ∧ Accepted framebuffer

/-- The screen has room for a character.  Else the first one is a panic that holds the lock
    of the screen. -/
def ScreenFits (a : Answers) : Prop :=
  ∀ framebuffer rest, a.framebuffers = some (framebuffer :: rest) →
    8 ≤ framebuffer.width ∧ 16 ≤ framebuffer.height

/-- The answers are as `kernel_main` needs them. -/
structure Good (a : Answers) : Prop where
  screen : a.ScreenOk
  info : a.bootloaderInfo.isSome
  memory : ∃ b region kSect, a.bootInfo = some b ∧ Boots b region kSect

variable {a : Answers} {t : Texts} {mem : PhysMem} {display : Memory}

/-- `init_kwriter` gets a screen, or panics. -/
theorem screen_cases (a : Answers) (t : Texts) (display : Memory) :
    a.ScreenOk ∧ a.screen t display = .ok ()
      ∨ ¬ a.ScreenOk ∧ ∃ message, a.screen t display = .error (t.panic message) := by
  rw [screen, ScreenOk]
  match a.framebuffers with
  | none => exact Or.inr ⟨nofun, _, rfl⟩
  | some [] =>
      refine Or.inr ⟨?_, _, rfl⟩
      rintro ⟨framebuffer, rest, hfb, -⟩
      cases hfb
  | some (framebuffer :: rest) =>
      have hiff : (∃ lfb, KermolDisplayMemory.new framebuffer display = .ok (.ok lfb))
          ↔ Accepted framebuffer := new_ok_iff
      by_cases hacc : Accepted framebuffer
      · refine Or.inl ⟨⟨framebuffer, rest, rfl, hacc⟩, ?_⟩
        dsimp only
        rw [new_ok hacc display]
      · refine Or.inr ⟨?_, ?_⟩
        · rintro ⟨framebuffer', rest', hfb, hacc'⟩
          cases hfb
          exact hacc hacc'
        · dsimp only
          match hnew : KermolDisplayMemory.new framebuffer display with
          | .ok (.ok lfb) => exact absurd (hiff.mp ⟨lfb, hnew⟩) hacc
          | .ok (.error e) => exact ⟨_, rfl⟩
          | .error p => exact ⟨_, rfl⟩

/-- `init_memory` returns `Ok` exactly if its boot information is there, and as it has to
    be. -/
theorem memoryUp_iff (hstack : ∀ b, a.bootInfo = some b → b.StackOutside)
    (hroom : ∀ b, a.bootInfo = some b → Room b.hhdm.offset.addr (bootLimit b)) :
    a.memoryUp mem = true
      ↔ ∃ b region kSect, a.bootInfo = some b ∧ Boots b region kSect := by
  rw [memoryUp]
  cases hb : a.bootInfo with
  | none => simp
  | some b =>
      have hiff := (initMemory_reaches_iff (hstack b hb) mem).trans
        (prepareMemory_ok_iff (hstack b hb) mem (hroom b hb))
      dsimp only
      split
      · next k hk =>
          obtain ⟨region, kSect, hboots⟩ := hiff.mp ⟨k, hk⟩
          exact iff_of_true rfl ⟨b, region, kSect, rfl, hboots⟩
      · next hfail =>
          refine iff_of_false Bool.false_ne_true ?_
          rintro ⟨b', region, kSect, hb', hboots⟩
          cases hb'
          obtain ⟨k, hk⟩ := hiff.mpr ⟨region, kSect, hboots⟩
          exact hfail k hk

theorem good_iff (hstack : ∀ b, a.bootInfo = some b → b.StackOutside)
    (hroom : ∀ b, a.bootInfo = some b → Room b.hhdm.offset.addr (bootLimit b)) :
    a.Good ↔ a.ScreenOk ∧ a.bootloaderInfo.isSome ∧ a.memoryUp mem = true := by
  rw [memoryUp_iff hstack hroom]
  exact ⟨fun h => ⟨h.screen, h.info, h.memory⟩, fun h => ⟨h.1, h.2.1, h.2.2⟩⟩

/-- With the boot information there is a memory map, and an offset. -/
theorem memoryUp_answers (h : a.memoryUp mem = true) :
    ∃ rammapEntries hhdm, a.memoryMap = some rammapEntries ∧ a.hhdm = some hhdm := by
  rw [memoryUp] at h
  cases hmap : a.memoryMap with
  | none => simp [bootInfo, hmap] at h
  | some rammapEntries =>
      cases hhhdm : a.hhdm with
      | none => simp [bootInfo, hmap, hhhdm] at h
      | some hhdm => exact ⟨rammapEntries, hhdm, rfl, rfl⟩

section Memory

variable {rammapEntries : List MemoryRegionInfo} {hhdm : HhdmResponse} (t : Texts)

/-- `init_memory` with a memory map and an offset, when it succeeds -/
theorem initMemoryCalls_up (hmap : a.memoryMap = some rammapEntries) (hhhdm : a.hhdm = some hhdm)
    (hup : a.memoryUp mem = true) :
    a.initMemoryCalls t mem = (initMemoryLog rammapEntries, none) := by
  rw [initMemoryCalls, hmap, hhhdm]
  exact if_pos hup

/-- and when it does not. -/
theorem initMemoryCalls_down (hmap : a.memoryMap = some rammapEntries)
    (hhhdm : a.hhdm = some hhdm) (hup : a.memoryUp mem = false) :
    a.initMemoryCalls t mem = (logRamMap rammapEntries, some (t.panic t.memory)) := by
  rw [initMemoryCalls, hmap, hhhdm]
  exact if_neg (Bool.eq_false_iff.mp hup)

end Memory

/-- `kernel_main` behind `init_kwriter`: it gets to its end, or it panics without a word on
    the serial port. -/
theorem kernelMainCalls_cases (a : Answers) (t : Texts) (mem : PhysMem) :
    (a.bootloaderInfo.isSome ∧ a.memoryUp mem = true)
        ∧ (a.kernelMainCalls t mem).2 = none
        ∧ printed (a.kernelMainCalls t mem).1 .serial = text "PEIS\r\nHi\r\n"
      ∨ ¬ (a.bootloaderInfo.isSome ∧ a.memoryUp mem = true)
        ∧ (∃ message, (a.kernelMainCalls t mem).2 = some (t.panic message))
        ∧ printed (a.kernelMainCalls t mem).1 .serial = [] := by
  have hgreeting : ∀ info calls, printed (greetingCalls info ++ calls) .serial
      = printed calls .serial := fun _ _ => rfl
  have hlog : ∀ rammapEntries, printed (logRamMap rammapEntries) .serial = [] :=
    printed_regions_serial
  cases hinfo : a.bootloaderInfo with
  | none =>
      refine Or.inr ⟨fun h => Bool.false_ne_true h.1, ?_⟩
      rw [kernelMainCalls, hinfo]
      exact ⟨⟨_, rfl⟩, rfl⟩
  | some info =>
      rw [kernelMainCalls, hinfo]
      cases hup : a.memoryUp mem with
      | true =>
          obtain ⟨rammapEntries, hhdm, hmap, hhhdm⟩ := memoryUp_answers hup
          refine Or.inl ⟨⟨rfl, rfl⟩, ?_⟩
          dsimp only
          rw [initMemoryCalls_up t hmap hhhdm hup]
          refine ⟨rfl, ?_⟩
          rw [hgreeting, initMemoryLog, printed_append, printed_append, hlog]
          rfl
      | false =>
          refine Or.inr ⟨fun h => Bool.false_ne_true h.2, ?_⟩
          obtain ⟨calls, message, hcalls, hserial⟩ : ∃ calls message,
              a.initMemoryCalls t mem = (calls, some (t.panic message))
                ∧ printed calls .serial = [] := by
            cases hmap : a.memoryMap with
            | none => exact ⟨_, _, by rw [initMemoryCalls, hmap], rfl⟩
            | some rammapEntries =>
                cases hhhdm : a.hhdm with
                | none => exact ⟨_, _, by rw [initMemoryCalls, hmap, hhhdm], rfl⟩
                | some hhdm =>
                    exact ⟨_, _, initMemoryCalls_down t hmap hhhdm hup, hlog rammapEntries⟩
          dsimp only
          rw [hcalls]
          refine ⟨⟨message, rfl⟩, ?_⟩
          rw [hgreeting, hserial]

/-- A report does not look like a line of the memory map. -/
theorem readLine_panic (t : Texts) (message : String) :
    readLine (t.panic message ++ "\n").toList = none := by
  rw [Texts.panic, panicInfo]
  simp only [String.toList_append, List.append_assoc]
  rfl

/-- The memory map is on the screen, whatever becomes of `init_memory`. -/
theorem shown_kernelMainCalls {info : String × String} {rammapEntries : List MemoryRegionInfo}
    (t : Texts) (mem : PhysMem) (hinfo : a.bootloaderInfo = some info)
    (hmap : a.memoryMap = some rammapEntries) (hhhdm : a.hhdm.isSome) :
    ∃ rest, readLine rest = none
      ∧ shown (a.kernelMainCalls t mem).1
          ++ characters (report .console (a.kernelMainCalls t mem).2)
        = greeting info ++ ("Bootloader provided physical RAM map:\n".toList
          ++ ((rammapEntries.map entry).flatMap line ++ rest)) := by
  obtain ⟨hhdm, hhhdm⟩ := Option.isSome_iff_exists.mp hhhdm
  have hserial : ∀ s (calls : List Call), shown (.serialPrint s :: calls) = shown calls :=
    fun _ _ => rfl
  have hnil : shown [] = [] := rfl
  rw [kernelMainCalls, hinfo]
  dsimp only
  cases hup : a.memoryUp mem with
  | true =>
      refine ⟨"Heap Initialized\n".toList, by decide, ?_⟩
      have hreport : characters (report .console none) = [] := rfl
      rw [initMemoryCalls_up t hmap hhhdm hup]
      dsimp only
      rw [hreport, List.append_nil, shown_append, shown_append, initMemoryLog, shown_append,
        shown_greetingCalls, shown_logRamMap, hserial, shown_kprint, hserial, hnil]
      simp only [List.append_nil, List.append_assoc]
  | false =>
      refine ⟨(t.panic t.memory ++ "\n").toList, readLine_panic t t.memory, ?_⟩
      have hreport : characters (report .console (some (t.panic t.memory)))
          = (t.panic t.memory ++ "\n").toList := characters_text _
      rw [initMemoryCalls_down t hmap hhhdm hup]
      dsimp only
      rw [hreport, shown_append, shown_greetingCalls, shown_logRamMap]
      simp only [List.append_assoc]

/-- A report is not what a boot that succeeds prints. -/
theorem serialReport_ne (t : Texts) (message : String) :
    serialReport (t.panic message) ≠ text "PEIS\r\nHi\r\n" := by
  intro h
  rw [serialReport, Texts.panic, panicInfo, text] at h
  simp only [String.toList_append, List.append_assoc, List.map_append] at h
  cases congrArg List.head? h

end Answers

/-- **THE WHOLE BOOT.**  A boot that nothing interrupts comes to its end, whatever the boot
    loader answers.  The serial port has the two lines if and only if the answers are
    good, and else a report; the report is on the screen too if there is one.  The
    writer of the screen draws all that is printed.  The memory map can be read from
    the screen as soon as `init_memory` has it and the offset, also when
    `init_memory` fails. -/
theorem kernelMain_up_iff (a : Answers) (t : Texts) (mem : PhysMem) (display : Memory)
    (hstack : ∀ b, a.bootInfo = some b → b.StackOutside)
    (hroom : ∀ b, a.bootInfo = some b → Room b.hhdm.offset.addr (bootLimit b))
    (hfits : a.ScreenFits) :
    ∃ n, ∀ k, n ≤ k → ∃ m, (exec kernel)^[k] (start boot (a.kernelMain t mem display)) = m
      ∧ Halted m
      ∧ (m.out .serial = text "PEIS\r\nHi\r\n" ↔ a.Good)
      ∧ (¬ a.Good → ∃ message, m.out .serial = serialReport (t.panic message)
        ∧ (a.ScreenOk → ∃ before, m.out .console = before ++ consoleReport (t.panic message))
        ∧ (¬ a.ScreenOk → m.out .console = []))
      ∧ (∀ framebuffer rest (hacc : Accepted framebuffer),
        a.framebuffers = some (framebuffer :: rest) →
        ∃ w, textRun (m.out .console)
          (.new (view framebuffer hacc display) true DEFAULT_COLOR VgaColor.black) = .ok w)
      ∧ (a.ScreenOk → ∀ info rammapEntries, a.bootloaderInfo = some info →
        a.memoryMap = some rammapEntries → a.hhdm.isSome →
        ∃ cs, characters (m.out .console) = greeting info ++ cs
          ∧ readRamMap cs = some (rammapEntries.map entry)) := by
  have hgood : a.Good ↔ a.ScreenOk ∧ a.bootloaderInfo.isSome ∧ a.memoryUp mem = true :=
    Answers.good_iff hstack hroom
  have hdraws : ∀ out framebuffer rest (hacc : Accepted framebuffer),
      a.framebuffers = some (framebuffer :: rest) → ∃ w, textRun out
        (.new (view framebuffer hacc display) true DEFAULT_COLOR VgaColor.black) = .ok w := by
    intro out framebuffer rest hacc hfb
    obtain ⟨hwidth, hheight⟩ := hfits framebuffer rest hfb
    obtain ⟨w, hrun, -⟩ := screen_prints out
      (show 8 ≤ (view framebuffer hacc display).width from hwidth) hheight
    exact ⟨w, hrun⟩
  rw [Answers.kernelMain]
  rcases a.screen_cases t display with ⟨hscreen, hok⟩ | ⟨hscreen, message, hfail⟩
  · rw [hok]
    obtain ⟨n, hends⟩ := program_ends (a.kernelMainCalls t mem).1 (a.kernelMainCalls t mem).2
    refine ⟨n, fun k hk => ⟨_, rfl, ?_⟩⟩
    obtain ⟨hhalted, hout⟩ := hends k hk
    refine ⟨hhalted, ?_, ?_, hdraws _, ?_⟩
    · rw [hout .serial, hgood, and_iff_right hscreen]
      rcases a.kernelMainCalls_cases t mem with ⟨hup, hnone, hserial⟩
        | ⟨hup, ⟨message, hsome⟩, hserial⟩
      · rw [hserial, hnone]
        exact iff_of_true (List.append_nil _) hup
      · rw [hserial, hsome]
        exact iff_of_false (Answers.serialReport_ne t message) hup
    · intro hbad
      rw [hgood, and_iff_right hscreen] at hbad
      rcases a.kernelMainCalls_cases t mem with ⟨hup, -⟩ | ⟨-, ⟨message, hsome⟩, hserial⟩
      · exact absurd hup hbad
      · refine ⟨message, ?_, fun _ => ⟨printed (a.kernelMainCalls t mem).1 .console, ?_⟩,
          fun h => absurd hscreen h⟩
        · rw [hout .serial, hserial, hsome]
          rfl
        · rw [hout .console, hsome]
          rfl
    · intro _ info rammapEntries hinfo hmap hhhdm
      obtain ⟨rest, hrest, hshown⟩ := Answers.shown_kernelMainCalls t mem hinfo hmap hhhdm
      refine ⟨_, ?_, readRamMap_log _ hrest⟩
      rw [hout .console, characters_append, ← hshown]
      rfl
  · rw [hfail]
    obtain ⟨n, hends⟩ := early_panic_ends (t.panic message)
    refine ⟨n, fun k hk => ⟨_, rfl, ?_⟩⟩
    obtain ⟨hhalted, hserial, hconsole⟩ := hends k hk
    refine ⟨hhalted, ?_, fun _ => ⟨message, hserial, fun h => absurd h hscreen, fun _ => hconsole⟩,
      hdraws _, fun h => absurd h hscreen⟩
    rw [hserial]
    exact iff_of_false (Answers.serialReport_ne t message) fun h => hscreen h.screen

/-- The sample boot, with its screen. -/
def sampleAnswers : Answers where
  framebuffers := some [KermolDisplaySpace.sampleScreen]
  bootloaderInfo := some ("Limine", "9.0.0")
  memoryMap := some sampleBoot.rammapEntries
  hhdm := some sampleBoot.hhdm
  kernelAddr := some sampleBoot.kernelAddr
  image := sampleBoot.image
  entryStackPointer := sampleBoot.entryStackPointer

def sampleTexts : Texts := ⟨fun _ => "src/lib.rs:42:10", "AllocationError", "overflow"⟩

theorem sampleAnswers_bootInfo : sampleAnswers.bootInfo = some sampleBoot := rfl

theorem sampleAnswers_screenFits : sampleAnswers.ScreenFits := by
  intro framebuffer rest hfb
  obtain ⟨rfl, -⟩ := List.cons.inj (Option.some.inj hfb)
  decide

theorem sampleAnswers_good : sampleAnswers.Good where
  screen := ⟨_, [], rfl, by decide⟩
  info := rfl
  memory := by
    obtain ⟨c, heapVirt, h⟩ := prepareMemory_total sampleBoot_bootable sampleState.mem
    obtain ⟨region, kSect, hboots⟩ := (prepareMemory_ok_iff sampleBoot_stackOutside
      sampleState.mem sampleBoot_bootable.room).mp ⟨c, heapVirt, h⟩
    exact ⟨sampleBoot, region, kSect, sampleAnswers_bootInfo, hboots⟩

theorem kernelMain_up_sample :
    ∃ n, ((exec kernel)^[n] (start boot (sampleAnswers.kernelMain sampleTexts sampleState.mem
      fun _ => 0#8))).out .serial = text "PEIS\r\nHi\r\n" := by
  have hinfo : ∀ b, sampleAnswers.bootInfo = some b → sampleBoot = b := fun b hb =>
    Option.some.inj (sampleAnswers_bootInfo.symm.trans hb)
  obtain ⟨n, hends⟩ := kernelMain_up_iff sampleAnswers sampleTexts sampleState.mem (fun _ => 0#8)
    (fun b hb => hinfo b hb ▸ sampleBoot_stackOutside)
    (fun b hb => hinfo b hb ▸ sampleBoot_bootable.room) sampleAnswers_screenFits
  obtain ⟨m, rfl, -, hserial, -⟩ := hends n (Nat.le_refl n)
  exact ⟨n, hserial.mpr sampleAnswers_good⟩

end KermolMain
