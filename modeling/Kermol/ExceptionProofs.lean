import Kermol.BootLogProofs

/-! # Exceptions

    Each handler in the interrupt descriptor table panics with the name of its
    exception and what the processor has left.  From then on an exception is a
    panic like any other: it can come at any time, and whether it gets to the
    serial port depends on who was stopped (`raise_settles`).

    The names tell the exceptions apart, so that the vector can be read off the
    serial port again (`readVector_report`), unless the handler panics on the way
    to its own message; `exception_identified_iff` says when. -/

namespace KermolException

open Preemption KermolVgaText KermolPanic KermolBootLog TextFormat

/-! ## The code -/

/-- What the processor leaves for a handler, with the texts that the `x86_64` crate makes of
    the stack frame, of `CR2` and of the error codes. -/
structure Trap where
  stackFrame : String
  errorCode : Nat
  selectorErrorCode : String
  pageFaultErrorCode : String
  cr2 : String

/-- What a handler formats behind the name of its exception. -/
inductive Arguments where
  | stackFrame
  | selector (between : String)
  | errorCode
  | pageFault
deriving DecidableEq, Repr

/-- The text of the arguments.  `SelectorErrorCode::new(error_code)` is `None` if one of the
    upper 48 bits is set, and the `unwrap` of it comes first. -/
def Arguments.format : Arguments → Trap → Option String
  | .stackFrame, t => some t.stackFrame
  | .selector between, t =>
      if t.errorCode < 2 ^ 16 then some (t.stackFrame ++ between ++ t.selectorErrorCode)
      else none
  | .errorCode, t => some (t.stackFrame ++ "\n error code: " ++ toString t.errorCode)
  | .pageFault, t =>
      some (t.cr2 ++ "\nError Code: " ++ t.pageFaultErrorCode ++ "\n" ++ t.stackFrame)

/-- A handler is a `panic!` with a name and arguments. -/
structure Handler where
  name : String
  arguments : Arguments
deriving DecidableEq, Repr

/-- The message of an `unwrap` that fails. -/
def unwrapMessage : String := "called `Option::unwrap()` on a `None` value"

/-- What the handler panics with. -/
def Handler.message (self : Handler) (t : Trap) : String :=
  match self.arguments.format t with
  | some formatted => self.name ++ formatted
  | none => unwrapMessage

/-- `division_error_handler` -/
def divisionErrorHandler : Handler := ⟨"DIVISION ERROR: \n", .stackFrame⟩

/-- `debug_handler` -/
def debugHandler : Handler := ⟨"DEBUG: \n", .stackFrame⟩

/-- `nmi_handler` -/
def nmiHandler : Handler := ⟨"NON-MASKABLE INTERRUPT: \n", .stackFrame⟩

/-- `breakpoint_handler` -/
def breakpointHandler : Handler := ⟨"BREAKPOINT: \n", .stackFrame⟩

/-- `overflow_handler` -/
def overflowHandler : Handler := ⟨"OVERFLOW: \n", .stackFrame⟩

/-- `bound_range_exceeded_handler` -/
def boundRangeExceededHandler : Handler := ⟨"BOUND RANGE EXCEEDED: \n", .stackFrame⟩

/-- `invalid_opcode_handler` -/
def invalidOpcodeHandler : Handler := ⟨"INVALID OPCODE: \n", .stackFrame⟩

/-- `device_not_available_handler` -/
def deviceNotAvailableHandler : Handler := ⟨"DEVICE_NOT_AVAILABLE: \n", .stackFrame⟩

/-- `double_fault_handler` -/
def doubleFaultHandler : Handler := ⟨"!DOUBLE FAULT: \n", .stackFrame⟩

/-- `invalid_tss_handler` -/
def invalidTssHandler : Handler := ⟨"INVALID TASK-STATE SEGMENT: \n", .selector "\n "⟩

/-- `segment_not_present_handler` -/
def segmentNotPresentHandler : Handler := ⟨"SEGMENT NOT PRESENT: \n", .selector "\n "⟩

/-- `stack_segment_fault_handler` -/
def stackSegmentFaultHandler : Handler := ⟨"STACK-SEGMENT FAULT: \n", .selector "\n "⟩

/-- `general_protection_fault_handler` -/
def generalProtectionFaultHandler : Handler :=
  ⟨"GENERAL PROTECTION FAULT: \n", .selector "\n"⟩

/-- `page_fault_handler` -/
def pageFaultHandler : Handler := ⟨"PAGE FAULT \nAccessed Address: ", .pageFault⟩

/-- `x87_floating_point_exception_handler` -/
def x87FloatingPointExceptionHandler : Handler :=
  ⟨"X87 FLOATING-POINT EXCEPTION: \n", .stackFrame⟩

/-- `alignment_check_handler` -/
def alignmentCheckHandler : Handler := ⟨"ALIGNMENT CHECK: \n", .errorCode⟩

/-- `simd_floating_point_exception_handler` -/
def simdFloatingPointExceptionHandler : Handler :=
  ⟨"SIMD FLOATING-POINT EXCEPTION: \n", .stackFrame⟩

/-- `virtualization_exception_handler` -/
def virtualizationExceptionHandler : Handler := ⟨"VIRTUALIZATION EXCEPTION: \n", .stackFrame⟩

/-- `control_protection_exception_handler` -/
def controlProtectionExceptionHandler : Handler :=
  ⟨"CONTROL PROTECTION EXCEPTION: \n", .errorCode⟩

/-- `hypervisor_injection_exception_handler` -/
def hypervisorInjectionExceptionHandler : Handler :=
  ⟨"HYPERVISOR INJECTION EXCEPTION: \n", .stackFrame⟩

/-- `vmm_communication_exception_handler` -/
def vmmCommunicationExceptionHandler : Handler :=
  ⟨"VMM COMMUNICATION EXCEPTION: \n", .errorCode⟩

/-- `security_exception_handler` -/
def securityExceptionHandler : Handler := ⟨"SECURITY EXCEPTION: \n", .errorCode⟩

/-- `IDT`, by the vectors of its fields.  The entry for a machine check is left out there
    as well. -/
def idt : List (Nat × Handler) :=
  [(0, divisionErrorHandler), (1, debugHandler), (2, nmiHandler), (3, breakpointHandler),
    (4, overflowHandler), (5, boundRangeExceededHandler), (6, invalidOpcodeHandler),
    (7, deviceNotAvailableHandler), (8, doubleFaultHandler), (10, invalidTssHandler),
    (11, segmentNotPresentHandler), (12, stackSegmentFaultHandler),
    (13, generalProtectionFaultHandler), (14, pageFaultHandler),
    (16, x87FloatingPointExceptionHandler), (17, alignmentCheckHandler),
    (19, simdFloatingPointExceptionHandler), (20, virtualizationExceptionHandler),
    (21, controlProtectionExceptionHandler), (28, hypervisorInjectionExceptionHandler),
    (29, vmmCommunicationExceptionHandler), (30, securityExceptionHandler)]

/-- `{}` of a `PanicInfo` -/
def panicInfo (location message : String) : PanicInfo :=
  "panicked at " ++ location ++ ":\n" ++ message

/-! ## Reading a report -/

/-- The names with their vectors. -/
def names : List (Nat × List Char) := idt.map fun e => (e.1, e.2.name.toList)

/-- The vector whose name begins the second line. -/
def readVector (cs : List Char) : Option Nat :=
  (field '\n' cs).bind fun x => readTag names x.2

theorem names_prefixFree : PrefixFree names := by
  unfold PrefixFree
  decide +kernel

/-- The vectors whose handlers look at a selector error code. -/
def selectorVectors : List Nat := [10, 11, 12, 13]

theorem selector_iff {v : Nat} {handler : Handler} (h : (v, handler) ∈ idt) :
    v ∈ selectorVectors ↔ ∃ between, handler.arguments = .selector between := by
  have hall : ∀ e ∈ idt, if e.1 ∈ selectorVectors
      then e.2.arguments = .selector "\n " ∨ e.2.arguments = .selector "\n"
      else e.2.arguments ∈ [.stackFrame, .errorCode, .pageFault] := by decide
  have hthis := hall _ h
  constructor
  · intro hv
    rw [if_pos hv] at hthis
    rcases hthis with hargs | hargs
    · exact ⟨_, hargs⟩
    · exact ⟨_, hargs⟩
  · rintro ⟨between, hargs⟩
    by_contra hv
    rw [if_neg hv, hargs] at hthis
    simp at hthis

/-- When a handler gets to its message. -/
theorem format_isSome_iff {v : Nat} {handler : Handler} (h : (v, handler) ∈ idt) (t : Trap) :
    (handler.arguments.format t).isSome
      ↔ (v ∈ selectorVectors → t.errorCode < 2 ^ 16) := by
  rw [selector_iff h]
  cases handler.arguments with
  | selector between =>
      rw [Arguments.format]
      split
      · next hlt => exact ⟨fun _ _ => hlt, fun _ => rfl⟩
      · next hge =>
          constructor
          · intro hsome
            cases hsome
          · intro hlt
            exact absurd (hlt ⟨between, rfl⟩) hge
  | _ => simp [Arguments.format]

/-- **A REPORT CAN BE READ BACK,** whatever the texts in it, if the handler got to its
    message. -/
theorem readVector_report {v : Nat} {handler : Handler} (h : (v, handler) ∈ idt) (t : Trap)
    {location : String} (hlocation : '\n' ∉ location.toList) :
    readVector (characters (serialReport (panicInfo location (handler.message t))))
      = if (handler.arguments.format t).isSome then some v else none := by
  have hfirst : '\n' ∉ ("panicked at " ++ location ++ ":").toList := by
    rw [String.toList_append, String.toList_append]
    simp [hlocation]
  have hlines : characters (serialReport (panicInfo location (handler.message t)))
      = ("panicked at " ++ location ++ ":").toList
        ++ '\n' :: (handler.message t ++ "\n").toList := by
    rw [serialReport, characters_text, panicInfo]
    simp
  rw [hlines, readVector, field_append hfirst, Option.bind_some, Handler.message]
  cases handler.arguments.format t with
  | none =>
      dsimp only
      rw [Option.isSome_none, if_neg Bool.false_ne_true]
      decide +kernel
  | some formatted =>
      have hmem : (v, handler.name.toList) ∈ names := List.mem_map.mpr ⟨_, h, rfl⟩
      dsimp only
      rw [Option.isSome_some, if_pos rfl, String.toList_append, String.toList_append,
        List.append_assoc]
      exact readTag_append names_prefixFree hmem _

/-- **WHEN AN EXCEPTION CAN BE TOLD FROM THE OUTPUT.**  An exception comes in any state of any
    run, and nothing comes after it.  In the end the serial port shows what it showed
    before and a report, from which the vector can be read if and only if the
    port was not locked and a handler that looks at a selector error code got
    one of 16 bits. -/
theorem exception_identified_iff (calls : List Call) (m : KernelMachine)
    (h : Reaches kernel (start boot (program calls)) m) (v : Nat) (handler : Handler)
    (hidt : (v, handler) ∈ idt) (t : Trap) (location : String)
    (hlocation : '\n' ∉ location.toList) :
    ∃ n report, (∀ k, n ≤ k →
        ((exec kernel)^[k] (raise (panicInfo location (handler.message t)) m)).out .serial
          = m.out .serial ++ report)
      ∧ (readVector (characters report) = some v
        ↔ m.locked .serial = false ∧ (v ∈ selectorVectors → t.errorCode < 2 ^ 16)) := by
  obtain ⟨n, hn⟩ := raise_settles (setup_cases h) (panicInfo location (handler.message t))
  cases hlocked : m.locked .serial with
  | true =>
      refine ⟨n, [], fun k hk => ?_, ?_⟩
      · rw [(hn k hk).1, if_pos hlocked, List.append_nil]
      · constructor
        · intro hread
          cases hread
        · rintro ⟨hfalse, -⟩
          cases hfalse
  | false =>
      refine ⟨n, serialReport (panicInfo location (handler.message t)), fun k hk => ?_, ?_⟩
      · rw [(hn k hk).1, if_neg (by rw [hlocked]; decide)]
      · rw [readVector_report hidt t hlocation, ← format_isSome_iff hidt t]
        cases handler.arguments.format t <;> simp

/-- A page fault at address 0. -/
def sampleTrap : Trap where
  stackFrame := "InterruptStackFrame"
  errorCode := 0
  selectorErrorCode := "SelectorErrorCode"
  pageFaultErrorCode := "PageFaultErrorCode(0x0)"
  cr2 := "Ok(VirtAddr(0x0))"

/-- Before anything is printed it can be told. -/
theorem exception_identified_sample :
    ∃ n report, (∀ k, n ≤ k → ((exec kernel)^[k] (raise (panicInfo
        "src/interrupts/exceptions.rs:92:5" (pageFaultHandler.message sampleTrap))
          (start boot (program [])))).out .serial = report)
      ∧ readVector (characters report) = some 14 := by
  obtain ⟨n, report, hout, hread⟩ := exception_identified_iff [] (start boot (program [])) .refl
    14 pageFaultHandler (by decide) sampleTrap "src/interrupts/exceptions.rs:92:5"
    (by decide +kernel)
  exact ⟨n, report, hout, hread.mpr ⟨rfl, fun h => absurd h (by decide)⟩⟩

end KermolException
