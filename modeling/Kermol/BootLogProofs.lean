import Kermol.PanicProofs
import Kermol.TextFormatProofs
import Kermol.FrameBitmapProofs

/-! # The boot log

    `kernel_main` prints as it goes, `init_memory` prints the memory map.  Calls
    that nothing interrupts print their messages one after the other
    (`settle_calls`), and the memory map can be read back from the characters on
    the screen (`readRamMap_log`). -/

namespace KermolBootLog

open Preemption KermolPanic KermolVgaText KermolFramebuffer KermolFrameBitmap TextFormat

/-! ## The code -/

/-- `{:?}` of a `MemoryRegionType` -/
def typeName : MemoryRegionType → String
  | .usable => "Usable"
  | .reserved => "Reserved"
  | .acpiReclaimable => "AcpiReclaimable"
  | .acpiNvs => "AcpiNvs"
  | .badMemory => "BadMemory"
  | .bootloaderReclaimable => "BootloaderReclaimable"
  | .executableAndModules => "ExecutableAndModules"
  | .framebuffer => "Framebuffer"
  | .acpiTables => "AcpiTables"

/-- The colour of a region in `log_ram_map`. -/
def typeColor : MemoryRegionType → Color
  | .usable => VgaColor.lightGreen
  | .reserved | .badMemory => VgaColor.lightRed
  | .framebuffer => VgaColor.lightBlue
  | _ => VgaColor.darkGray

/-- `{:0>12X}` -/
def hex12 (n : Nat) : String := String.ofList (upperHex 12 n)

/-- One region of `log_ram_map`. -/
def logRegion (r : MemoryRegionInfo) : List Call :=
  [.kprint ("[0x" ++ hex12 r.base ++ "->0x" ++ hex12 (r.base + r.length) ++ "]: "),
    .kwriterSetColor (typeColor r.type),
    .kprint (typeName r.type ++ "\n"),
    .kwriterSetColor DEFAULT_COLOR]

/-- `log_ram_map` -/
def logRamMap (rammapEntries : List MemoryRegionInfo) : List Call :=
  .kprint "Bootloader provided physical RAM map:\n" :: rammapEntries.flatMap logRegion

/-- What `init_memory` prints, up to its end: `log_ram_map`, the line behind `load`, and
    that of `init_heap`. -/
def initMemoryLog (rammapEntries : List MemoryRegionInfo) : List Call :=
  logRamMap rammapEntries ++ [.serialPrint "PEIS\r\n", .kprint "Heap Initialized\n"]

/-- What `kernel_main` prints before it, given the name and the version of the loader. -/
def greetingCalls (info : String × String) : List Call :=
  [.kprint ("Kermol was loaded using " ++ info.1 ++ " " ++ info.2 ++ "\n"),
    .kprint "Global Descriptor Table initialized\n",
    .kprint "Interrupt Descriptor Table loaded, Exceptions are now enabled\n"]

/-! ## What calls print -/

/-- The message of a call, and where it goes. -/
def message : Call → Device × List TextOp
  | .serialPrint s => (.serial, text s)
  | .kprint s => (.console, text s)
  | .kprintColor s color => (.console, .setText color :: (text s ++ [.setText DEFAULT_COLOR]))
  | .kwriterSetColor color => (.console, [.setText color])

/-- What calls print on a device. -/
def printed (calls : List Call) (d : Device) : List TextOp :=
  calls.flatMap fun call => if (message call).1 = d then (message call).2 else []

theorem printed_cons (call : Call) (calls : List Call) (d : Device) :
    printed (call :: calls) d
      = (if (message call).1 = d then (message call).2 else []) ++ printed calls d :=
  List.flatMap_cons

theorem printed_append (calls calls' : List Call) (d : Device) :
    printed (calls ++ calls') d = printed calls d ++ printed calls' d := List.flatMap_append

theorem settle_call (call : Call) (rest : List KernelOp) :
    settle kernel (fun _ => false) ready (call.ops ++ rest)
      = ((settle kernel (fun _ => false) ready rest).1,
        message call :: (settle kernel (fun _ => false) ready rest).2.1,
        (settle kernel (fun _ => false) ready rest).2.2) := by
  cases call <;> rfl

theorem settle_calls (calls : List Call) :
    settle kernel (fun _ => false) ready (calls.flatMap Call.ops)
      = (ready, calls.map message, []) := by
  induction calls with
  | nil => rfl
  | cons call calls ih => rw [List.flatMap_cons, settle_call, ih, List.map_cons]

theorem append_messages (calls : List Call) (out : Device → List TextOp) (d : Device) :
    append (calls.map message) out d = out d ++ printed calls d := by
  induction calls generalizing out with
  | nil => exact (List.append_nil _).symm
  | cons call calls ih =>
      rw [List.map_cons, append, List.foldl_cons, ← append, ih, printed_cons]
      by_cases hd : (message call).1 = d
      · subst hd
        rw [Function.update_self, if_pos rfl, List.append_assoc]
      · rw [Function.update_of_ne (Ne.symm hd), if_neg hd, List.nil_append]

/-! ## Reading the log -/

/-- The characters among what is printed. -/
def characters (ops : List TextOp) : List Char :=
  ops.flatMap fun op =>
    match op with
    | .writeChar c => [c]
    | .writeString s => s.toList
    | .setText _ => []

theorem characters_append (ops ops' : List TextOp) :
    characters (ops ++ ops') = characters ops ++ characters ops' := List.flatMap_append

theorem characters_text (s : String) : characters (text s) = s.toList := by
  rw [characters, text, List.flatMap_map]
  exact List.flatMap_singleton' _

/-- What the log says about a region: where it begins, where it ends, its type. -/
abbrev Entry := Nat × Nat × MemoryRegionType

def entry (r : MemoryRegionInfo) : Entry := (r.base, r.base + r.length, r.type)

/-- The line for a region. -/
def line (e : Entry) : List Char :=
  "[0x".toList ++ (upperHex 12 e.1 ++ '-' :: (">0x".toList ++ (upperHex 12 e.2.1
    ++ ']' :: (": ".toList ++ ((typeName e.2.2).toList ++ ['\n'])))))

def memoryRegionTypes : List MemoryRegionType :=
  [.usable, .reserved, .acpiReclaimable, .acpiNvs, .badMemory, .bootloaderReclaimable,
    .executableAndModules, .framebuffer, .acpiTables]

def readType (cs : List Char) : Option MemoryRegionType :=
  memoryRegionTypes.find? fun t => (typeName t).toList = cs

def readLine (cs : List Char) : Option (Entry × List Char) := do
  let cs ← literal "[0x".toList cs
  let base ← field '-' cs
  let cs ← literal ">0x".toList base.2
  let limit ← field ']' cs
  let cs ← literal ": ".toList limit.2
  let type ← field '\n' cs
  return ((← readHex base.1, ← readHex limit.1, ← readType type.1), type.2)

/-- Read the memory map off the log. -/
def readRamMap (cs : List Char) : Option (List Entry) := do
  let cs ← literal "Bootloader provided physical RAM map:\n".toList cs
  return (readMany readLine cs.length cs).1

theorem readType_typeName (t : MemoryRegionType) : readType (typeName t).toList = some t := by
  cases t <;> rfl

theorem newline_notMem_typeName (t : MemoryRegionType) : '\n' ∉ (typeName t).toList := by
  cases t <;> decide

/-- A line can be read back. -/
theorem readLine_line (e : Entry) (cs : List Char) :
    readLine (line e ++ cs) = some (e, cs) := by
  obtain ⟨base, limit, type⟩ := e
  have htype := field_append (newline_notMem_typeName type) cs
  simp only [line, readLine, List.append_assoc, List.cons_append, List.nil_append,
    literal_append, field_upperHex (show hexVal '-' = none by decide),
    field_upperHex (show hexVal ']' = none by decide), htype, readHex_upperHex,
    readType_typeName, Option.bind_eq_bind, Option.bind_some]
  rfl

/-- The characters that calls put on the screen. -/
def shown (calls : List Call) : List Char := characters (printed calls .console)

theorem shown_append (calls calls' : List Call) :
    shown (calls ++ calls') = shown calls ++ shown calls' := by
  rw [shown, printed_append, characters_append, shown, shown]

theorem shown_kprint (s : String) (calls : List Call) :
    shown (.kprint s :: calls) = s.toList ++ shown calls := by
  rw [shown, printed_cons, characters_append]
  show characters (text s) ++ _ = _
  rw [characters_text]
  rfl

/-- A region comes out as its line. -/
theorem shown_logRegion (r : MemoryRegionInfo) : shown (logRegion r) = line (entry r) := by
  have hcolor : ∀ color (calls : List Call), shown (.kwriterSetColor color :: calls)
      = shown calls := fun _ _ => rfl
  rw [logRegion, shown_kprint, hcolor, shown_kprint, hcolor]
  show _ ++ (_ ++ []) = _
  simp only [String.toList_append, hex12, String.toList_ofList, List.append_nil,
    List.append_assoc, line, entry]
  rfl

theorem shown_regions (regions : List MemoryRegionInfo) :
    shown (regions.flatMap logRegion) = (regions.map entry).flatMap line := by
  induction regions with
  | nil => rfl
  | cons r regions ih =>
      rw [List.flatMap_cons, shown_append, shown_logRegion, ih, List.map_cons,
        List.flatMap_cons]

/-- The memory map does not go to the serial port. -/
theorem printed_regions_serial (regions : List MemoryRegionInfo) :
    printed (regions.flatMap logRegion) .serial = [] := by
  induction regions with
  | nil => rfl
  | cons r regions ih =>
      rw [List.flatMap_cons, printed_append, ih]
      rfl

theorem length_le_flatMap_line (es : List Entry) : es.length ≤ (es.flatMap line).length := by
  induction es with
  | nil => exact Nat.le_refl 0
  | cons e es ih =>
      have hpos : 1 ≤ (line e).length := by
        rw [line, List.length_append]
        exact Nat.le_add_right_of_le (by decide)
      rw [List.flatMap_cons, List.length_append, List.length_cons]
      omega

/-- The memory map can be read back from its lines, whatever of the log follows. -/
theorem readRamMap_log (es : List Entry) {rest : List Char} (hrest : readLine rest = none) :
    readRamMap ("Bootloader provided physical RAM map:\n".toList ++ (es.flatMap line ++ rest))
      = some es := by
  have hlen := length_le_flatMap_line es
  rw [readRamMap, literal_append]
  show some (readMany readLine _ _).1 = _
  rw [readMany_flatMap readLine_line hrest es _ (by rw [List.length_append]; omega)]

/-- What stands before the memory map. -/
def greeting (info : String × String) : List Char :=
  ("Kermol was loaded using " ++ info.1 ++ " " ++ info.2 ++ "\n").toList
    ++ ("Global Descriptor Table initialized\n".toList
      ++ "Interrupt Descriptor Table loaded, Exceptions are now enabled\n".toList)

theorem shown_greetingCalls (info : String × String) :
    shown (greetingCalls info) = greeting info := by
  have hnil : shown [] = [] := rfl
  rw [greetingCalls, shown_kprint, shown_kprint, shown_kprint, hnil, List.append_nil, greeting]

theorem shown_logRamMap (rammapEntries : List MemoryRegionInfo) :
    shown (logRamMap rammapEntries) = "Bootloader provided physical RAM map:\n".toList
      ++ (rammapEntries.map entry).flatMap line := by
  rw [logRamMap, shown_kprint, shown_regions]

end KermolBootLog
