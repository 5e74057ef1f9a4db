import Kermol.PreemptionProofs
import Kermol.VgaTextProofs

/-! # Printing and panicking

    The kernel prints on the serial port and on the screen, each behind a spin
    lock.  A panic or an exception can come at any time, also in the middle of a
    message; its handler prints in turn and never returns, so that whatever was
    interrupted keeps its locks for good.  `PANIC_LEVEL` tells the handler
    whether there is a screen.

    `SERIAL1` is set up when it is first used.  That counts as part of the message:
    a handler that comes in between waits for it, although no lock is held yet.

    The results hold for every program that calls `init_kwriter` first and then
    prints as it likes, and for every order of steps, panics and exceptions: the
    handler finds the screen whenever it looks for it (`panic_level_sound`), no
    message is torn (`messages_whole`), and a panic is reported exactly if nobody
    was stopped in the middle of a message (`panic_reported_iff`). -/

namespace KermolPanic

open RustEffect Preemption KermolVgaText KermolFramebuffer

/-! ## The code -/

/-- The devices behind a lock: `SERIAL1` and `KWRITER`. -/
inductive Device where
  | serial
  | console
deriving DecidableEq, Repr

/-- `PANIC_LEVEL` and the state of the `Once` in `KWRITER`; reading `KWRITER` unchecked
    before it is there is undefined. -/
structure Setup where
  panicLevel : BitVec 8
  kwriter : Bool
  undefined : Bool
deriving DecidableEq, Repr

/-- What is done about them. -/
inductive Action where
  | callOnce
  | fetchAdd
  | expectKwriter (message : String)
  | getUnchecked
deriving DecidableEq, Repr

/-- The text of a `PanicInfo`. -/
abbrev PanicInfo := String

abbrev KernelOp := Op Device TextOp Action PanicInfo

abbrev KernelMachine := Machine Device TextOp Action Setup PanicInfo

/-- The actions; an `expect` that fails is a panic. -/
def Action.effect : Action → Setup → Except PanicInfo Setup
  | .callOnce, s => .ok { s with kwriter := true }
  | .fetchAdd, s => .ok { s with panicLevel := s.panicLevel + 1 }
  | .expectKwriter message, s => if s.kwriter then .ok s else .error message
  | .getUnchecked, s => .ok (if s.kwriter then s else { s with undefined := true })

/-- `VgaColor`, as the kernel uses it. -/
def VgaColor.black : Color := 0x0#32
def VgaColor.lightGray : Color := 0xAAAAAA#32
def VgaColor.darkGray : Color := 0x555555#32
def VgaColor.lightBlue : Color := 0x5555FF#32
def VgaColor.lightGreen : Color := 0x55FF55#32
def VgaColor.lightRed : Color := 0xFF5555#32

/-- `DEFAULT_COLOR` -/
def DEFAULT_COLOR : Color := VgaColor.lightGray

/-- A string, character by character. -/
def text (s : String) : List TextOp := s.toList.map .writeChar

/-- `serial::_print` -/
def serialPrint (s : String) : List KernelOp := [.print .serial (text s)]

/-- `_kprint` -/
def kprint (s : String) : List KernelOp :=
  [.act (.expectKwriter "Tried to kprint before setting up K_WRITER"), .print .console (text s)]

/-- `_kprint_color` -/
def kprintColor (s : String) (color : Color) : List KernelOp :=
  [.act (.expectKwriter "Tried to kprint before setting up K_WRITER"),
    .print .console (.setText color :: (text s ++ [.setText DEFAULT_COLOR]))]

/-- `kwriter_set_color` -/
def kwriterSetColor (color : Color) : List KernelOp :=
  [.act (.expectKwriter "Tried to access before setting up K_WRITER"),
    .print .console [.setText color]]

/-- `init_kwriter`, from `call_once` on. -/
def initKwriter : List KernelOp := [.act .callOnce, .act .fetchAdd]

/-- `panic_handler`, behind the load of `PANIC_LEVEL`. -/
def panicHandler (s : Setup) (info : PanicInfo) : List KernelOp :=
  match s.panicLevel.toNat with
  | 0 => serialPrint (info ++ "\n")
  | 1 => serialPrint (info ++ "\n") ++ [.act .getUnchecked,
      .print .console (.setText VgaColor.lightRed :: text (info ++ "\n"))]
  | _ => []

def kernel : System Device TextOp Action Setup PanicInfo where
  effect := Action.effect
  handler := panicHandler

/-- The state before anything has run. -/
def boot : Setup := ⟨0#8, false, false⟩

/-- What a program can print with. -/
inductive Call where
  | serialPrint (s : String)
  | kprint (s : String)
  | kprintColor (s : String) (color : Color)
  | kwriterSetColor (color : Color)
deriving DecidableEq, Repr

def Call.ops : Call → List KernelOp
  | .serialPrint s => KermolPanic.serialPrint s
  | .kprint s => KermolPanic.kprint s
  | .kprintColor s color => KermolPanic.kprintColor s color
  | .kwriterSetColor color => KermolPanic.kwriterSetColor color

/-- A program that sets up the screen and then prints. -/
def program (calls : List Call) : List KernelOp := initKwriter ++ calls.flatMap Call.ops

/-! ## How far the setup got -/

/-- Nothing in the program changes the setup, and no `expect` fails. -/
def Calm (s : Setup) (p : List KernelOp) : Prop :=
  ∀ x, Op.act x ∈ p → Action.effect x s = .ok s

/-- `init_kwriter` is behind `call_once`, -/
def made : Setup := ⟨0#8, true, false⟩

/-- and done. -/
def ready : Setup := ⟨1#8, true, false⟩

theorem Calm.tail {s : Setup} {op : KernelOp} {p : List KernelOp} (h : Calm s (op :: p)) :
    Calm s p := fun x hx => h x (List.mem_cons_of_mem op hx)

theorem Calm.append {s : Setup} {p q : List KernelOp} (hp : Calm s p) (hq : Calm s q) :
    Calm s (p ++ q) := fun x hx => (List.mem_append.mp hx).elim (hp x) (hq x)

/-- The screen is there for every call. -/
theorem calls_calm (calls : List Call) : Calm ready (calls.flatMap Call.ops) := by
  intro x hx
  obtain ⟨call, -, hx⟩ := List.mem_flatMap.mp hx
  cases call <;> simp [Call.ops, serialPrint, kprint, kprintColor, kwriterSetColor] at hx
  all_goals
    subst hx
    rfl

/-- The handler's level and the screen go together. -/
theorem panicHandler_calm {s : Setup} (hs : s = boot ∨ s = made ∨ s = ready)
    (info : PanicInfo) : Calm s (panicHandler s info) := by
  intro x hx
  rcases hs with rfl | rfl | rfl <;> simp [panicHandler, boot, made, ready, serialPrint] at hx
  subst hx
  rfl

/-- The program at the bottom of the stack, with the setup it has come to. -/
inductive MainAt (rest : List KernelOp) : Setup → List KernelOp → Prop
  | begin : MainAt rest boot (initKwriter ++ rest)
  | made : MainAt rest KermolPanic.made (.act .fetchAdd :: rest)
  | ready (p : List KernelOp) : Calm KermolPanic.ready p → MainAt rest KermolPanic.ready p

theorem MainAt.setup {rest p : List KernelOp} {s : Setup} (h : MainAt rest s p) :
    s = boot ∨ s = KermolPanic.made ∨ s = KermolPanic.ready := by
  cases h with
  | begin => exact Or.inl rfl
  | made => exact Or.inr (Or.inl rfl)
  | ready _ _ => exact Or.inr (Or.inr rfl)

/-- Only the program at the bottom of the stack changes the setup; the contexts above
    are calm. -/
def SetUp (rest : List KernelOp) (a : Atomic Device TextOp Action Setup PanicInfo) : Prop :=
  ∃ above p, a.programs = above ++ [p] ∧ (∀ q ∈ above, Calm a.shared q)
    ∧ MainAt rest a.shared p

section Runs

variable {rest : List KernelOp} {a a' : Atomic Device TextOp Action Setup PanicInfo}

/-- No `expect` of the program at the bottom fails. -/
theorem MainAt.act_ok {s : Setup} {x : Action} {q : List KernelOp}
    (h : MainAt rest s (.act x :: q)) : ∃ s', Action.effect x s = .ok s' := by
  cases h with
  | begin => exact ⟨_, rfl⟩
  | made => exact ⟨_, rfl⟩
  | ready _ hcalm => exact ⟨_, hcalm x List.mem_cons_self⟩

/-- The program at the bottom makes a step. -/
theorem mainAt_step (hrest : Calm ready rest) {s : Setup} {op : KernelOp} {q : List KernelOp}
    (h : MainAt rest s (op :: q)) :
    (∃ x s', op = .act x ∧ Action.effect x s = .ok s' ∧ MainAt rest s' q)
      ∨ s = ready ∧ Calm ready q := by
  cases h with
  | begin => exact Or.inl ⟨.callOnce, made, rfl, rfl, .made⟩
  | made => exact Or.inl ⟨.fetchAdd, ready, rfl, rfl, .ready _ hrest⟩
  | ready _ hcalm => exact Or.inr ⟨rfl, hcalm.tail⟩

/-- **THE SETUP, STEP BY STEP.** -/
theorem setUp_step (hrest : Calm ready rest) (h : SetUp rest a)
    (hstep : Atomic.Step kernel a a') : SetUp rest a' := by
  obtain ⟨above, p, hprograms, habove, hmain⟩ := h
  cases hstep with
  | print s log d message q below =>
      cases above with
      | nil =>
          obtain ⟨rfl, rfl⟩ := List.cons.inj hprograms
          rcases mainAt_step hrest hmain with ⟨x, s', hop, -⟩ | ⟨rfl, hcalm⟩
          · cases hop
          · exact ⟨[], q, rfl, fun _ hq => absurd hq List.not_mem_nil, .ready q hcalm⟩
      | cons top above =>
          obtain ⟨rfl, rfl⟩ := List.cons.inj hprograms
          rw [List.forall_mem_cons] at habove
          exact ⟨q :: above, p, rfl, List.forall_mem_cons.mpr ⟨habove.1.tail, habove.2⟩, hmain⟩
  | @act s s' x log q below heffect =>
      cases above with
      | nil =>
          obtain ⟨rfl, rfl⟩ := List.cons.inj hprograms
          refine ⟨[], q, rfl, fun _ hq => absurd hq List.not_mem_nil, ?_⟩
          rcases mainAt_step hrest hmain with ⟨x', s'', hop, heffect', hmain'⟩ | ⟨rfl, hcalm⟩
          · cases hop
            cases heffect.symm.trans heffect'
            exact hmain'
          · cases hmain with
            | ready _ hcalm' =>
                cases heffect.symm.trans (hcalm' x List.mem_cons_self)
                exact .ready q hcalm
      | cons top above =>
          obtain ⟨rfl, rfl⟩ := List.cons.inj hprograms
          rw [List.forall_mem_cons] at habove
          cases heffect.symm.trans (habove.1 x List.mem_cons_self)
          exact ⟨q :: above, p, rfl, List.forall_mem_cons.mpr ⟨habove.1.tail, habove.2⟩, hmain⟩
  | enter s log info q below =>
      have hhandler := panicHandler_calm hmain.setup info
      cases above with
      | nil =>
          obtain ⟨rfl, rfl⟩ := List.cons.inj hprograms
          rcases mainAt_step hrest hmain with ⟨x, s', hop, -⟩ | ⟨rfl, hcalm⟩
          · cases hop
          · exact ⟨[], _, rfl, fun _ hq => absurd hq List.not_mem_nil,
              .ready _ (hhandler.append hcalm)⟩
      | cons top above =>
          obtain ⟨rfl, rfl⟩ := List.cons.inj hprograms
          rw [List.forall_mem_cons] at habove
          exact ⟨_ :: above, p, rfl,
            List.forall_mem_cons.mpr ⟨hhandler.append habove.1.tail, habove.2⟩, hmain⟩
  | raise s log programs info =>
      refine ⟨[.enter info] :: above, p, congrArg ([.enter info] :: ·) hprograms,
        List.forall_mem_cons.mpr ⟨fun x hx => ?_, habove⟩, hmain⟩
      simp at hx

/-- **THE SETUP IN EVERY RUN.** -/
theorem setUp_reaches {calls : List Call}
    (h : Atomic.Reaches kernel (Atomic.start boot (program calls)) a) :
    SetUp (calls.flatMap Call.ops) a := by
  induction h with
  | refl => exact ⟨[], _, rfl, fun _ hq => absurd hq List.not_mem_nil, .begin⟩
  | tail _ hstep ih => exact setUp_step (calls_calm calls) ih hstep

end Runs

/-- **THE LEVEL IS SOUND.**  In every state of every run, whatever panics and exceptions come:
    the level is 0 or 1; at level 1 the screen is set up, so that the handler
    may take it unchecked; and the context that runs never meets an `expect`
    that fails. -/
theorem panic_level_sound (calls : List Call) (m : KernelMachine)
    (h : Reaches kernel (start boot (program calls)) m) :
    m.shared.panicLevel.toNat ≤ 1
      ∧ (m.shared.panicLevel.toNat = 1 → m.shared.kwriter = true)
      ∧ m.shared.undefined = false
      ∧ ∀ x rest below, m.contexts = ⟨none, .act x :: rest⟩ :: below →
        ∃ s, Action.effect x m.shared = .ok s := by
  obtain ⟨a, hreach, hsim⟩ := simulates h
  obtain ⟨above, p, hprograms, habove, hmain⟩ := setUp_reaches hreach
  rw [hsim.shared] at habove hmain
  refine ⟨?_, ?_, ?_, ?_⟩
  · rcases hmain.setup with hs | hs | hs <;> rw [hs] <;> decide
  · rcases hmain.setup with hs | hs | hs <;> rw [hs] <;> decide
  · rcases hmain.setup with hs | hs | hs <;> rw [hs] <;> rfl
  · intro x rest below htop
    rw [hsim.programs, htop] at hprograms
    cases above with
    | nil =>
        obtain ⟨rfl, -⟩ := List.cons.inj hprograms
        exact hmain.act_ok
    | cons top above =>
        obtain ⟨rfl, -⟩ := List.cons.inj hprograms
        exact ⟨_, habove _ List.mem_cons_self x List.mem_cons_self⟩

/-- A program that has taken the serial port and printed a character. -/
def sampleMachine : KernelMachine :=
  (exec kernel)^[4] (start boot (program [.serialPrint "Hi"]))

theorem sampleMachine_reached :
    Reaches kernel (start boot (program [.serialPrint "Hi"])) sampleMachine :=
  reaches_iterate kernel _ 4

theorem sampleMachine_contexts :
    sampleMachine.contexts = [⟨some (.serial, [.writeChar 'i']), []⟩] := rfl

/-- A panic in the middle of a message. -/
theorem panic_level_sound_sample :
    (raise "explicit panic" sampleMachine).contexts.length = 2
      ∧ (raise "explicit panic" sampleMachine).shared.panicLevel.toNat ≤ 1 :=
  ⟨rfl, (panic_level_sound [.serialPrint "Hi"] _
    (sampleMachine_reached.tail (.raise "explicit panic"))).1⟩

/-! ## Whole messages -/

/-- A screen of at least one cell takes any text. -/
theorem screen_prints (ops : List TextOp) {lfb : LinearFramebuffer} (hwidth : 8 ≤ lfb.width)
    (hheight : 16 ≤ lfb.height) :
    ∃ w, textRun ops (.new lfb true DEFAULT_COLOR VgaColor.black) = .ok w ∧ Ready lfb w :=
  textRun_ready ops (new_ready true DEFAULT_COLOR VgaColor.black hwidth hheight)

/-- A screen that was black shows the text as a terminal does. -/
theorem screen_shows (ops : List TextOp) {lfb : LinearFramebuffer} (hwidth : 8 ≤ lfb.width)
    (hheight : 16 ≤ lfb.height) (hempty : ∀ p ∈ lfb.buffer, p = VgaColor.black) :
    ∃ w, textRun ops (.new lfb true DEFAULT_COLOR VgaColor.black) = .ok w
      ∧ ∀ x < lfb.width, ∀ y < lfb.height, w.lfb.pixel x y
        = paint VgaColor.black (ops.foldl (TextOp.type true)
          (terminalOf lfb hwidth hheight, DEFAULT_COLOR)).1 x y := by
  obtain ⟨w, hrun, hshows⟩ := foldlM_sim ops (fun op _ _ _ h => perform_sim op h)
    (new_displays true DEFAULT_COLOR hwidth hheight hempty)
  obtain ⟨_, hrun', hready⟩ := screen_prints ops hwidth hheight
  cases hrun.symm.trans hrun'
  refine ⟨w, hrun, fun x hx y hy => ?_⟩
  exact hshows.shows x (hready.width.symm ▸ hx) y (hready.height.symm ▸ hy)

/-- **NO MESSAGE IS TORN.**  In every state of every run each device shows whole messages,
    in the order in which a machine without locks would have printed them, and
    at most one more from its beginning, under the lock; and the screen, blank at
    first, shows what a terminal makes of that. -/
theorem messages_whole (calls : List Call) (m : KernelMachine)
    (h : Reaches kernel (start boot (program calls)) m) :
    (∃ a, Atomic.Reaches kernel (Atomic.start boot (program calls)) a
        ∧ (∀ d, m.out d ++ pending m.contexts d = (a.log d).flatten)
        ∧ (∀ d, m.contexts.countP (Context.writesOn d) = (m.locked d).toNat)
        ∧ ∀ d, m.locked d = false → m.out d = (a.log d).flatten)
      ∧ ∀ (lfb : LinearFramebuffer) (hwidth : 8 ≤ lfb.width) (hheight : 16 ≤ lfb.height),
        (∀ p ∈ lfb.buffer, p = VgaColor.black) →
        ∃ w, textRun (m.out .console) (.new lfb true DEFAULT_COLOR VgaColor.black) = .ok w
          ∧ ∀ x < lfb.width, ∀ y < lfb.height, w.lfb.pixel x y
            = paint VgaColor.black ((m.out .console).foldl (TextOp.type true)
              (terminalOf lfb hwidth hheight, DEFAULT_COLOR)).1 x y := by
  obtain ⟨a, hreach, hsim⟩ := simulates h
  refine ⟨⟨a, hreach, hsim.out, hsim.locked, fun d hlock => ?_⟩,
    fun lfb hwidth hheight hempty => ?_⟩
  · rw [← hsim.out d, hsim.pending_eq_nil hlock, List.append_nil]
  · exact screen_shows _ hwidth hheight hempty

/-- One character is printed and one is under way. -/
theorem messages_whole_sample :
    sampleMachine.out .serial = [.writeChar 'H']
      ∧ ∃ a, Atomic.Reaches kernel (Atomic.start boot (program [.serialPrint "Hi"])) a
        ∧ (a.log .serial).flatten = [.writeChar 'H', .writeChar 'i'] := by
  refine ⟨rfl, ?_⟩
  obtain ⟨⟨a, hreach, hout, -⟩, -⟩ :=
    messages_whole [.serialPrint "Hi"] sampleMachine sampleMachine_reached
  exact ⟨a, hreach, (hout .serial).symm⟩

/-! ## Reports -/

section Reports

variable {s : Setup} {locked : Device → Bool} {info : PanicInfo}

/-- What the handler prints. -/
def serialReport (info : PanicInfo) : List TextOp := text (info ++ "\n")

def consoleReport (info : PanicInfo) : List TextOp :=
  .setText VgaColor.lightRed :: text (info ++ "\n")

/-- The handler without a screen, -/
theorem settle_handler_serial (hlevel : s.panicLevel = 0#8) :
    settle kernel locked s (panicHandler s info)
      = if locked .serial then (s, [], serialPrint (info ++ "\n"))
        else (s, [(.serial, serialReport info)], []) := by
  rw [panicHandler, hlevel]
  show settle kernel locked s [.print .serial (text (info ++ "\n"))] = _
  rw [settle]
  rfl

/-- and with one. -/
theorem settle_handler_console :
    settle kernel locked ready (panicHandler ready info)
      = if locked .serial then (ready, [], panicHandler ready info)
        else if locked .console then
          (ready, [(.serial, serialReport info)], [.print .console (consoleReport info)])
        else (ready, [(.serial, serialReport info), (.console, consoleReport info)], []) := by
  -- at level 1 the screen is there, and taking it unchecked changes nothing
  have hunchecked : settle kernel locked ready
      [.act .getUnchecked, .print .console (consoleReport info)]
      = settle kernel locked ready [.print .console (consoleReport info)] := rfl
  show settle kernel locked ready [.print .serial (serialReport info), .act .getUnchecked,
    .print .console (consoleReport info)] = _
  rw [settle]
  split
  · rfl
  · rw [hunchecked, settle]
    split <;> rfl

/-- Where the handler stops, and what it has printed by then. -/
theorem settle_handler (locked : Device → Bool) (info : PanicInfo)
    (hs : s = boot ∨ s = made ∨ s = ready) (out : Device → List TextOp) :
    Stops (settle kernel locked s (panicHandler s info)).2.2
      ∧ ((settle kernel locked s (panicHandler s info)).2.2 = []
        ↔ locked .serial = false ∧ (s.panicLevel.toNat = 1 → locked .console = false))
      ∧ append (settle kernel locked s (panicHandler s info)).2.1 out .serial
        = (if locked .serial then out .serial else out .serial ++ serialReport info)
      ∧ append (settle kernel locked s (panicHandler s info)).2.1 out .console
        = if s.panicLevel.toNat = 1 ∧ locked .serial = false ∧ locked .console = false
          then out .console ++ consoleReport info else out .console := by
  rcases hs with rfl | rfl | rfl
  · rw [settle_handler_serial rfl]
    cases hserial : locked .serial <;> simp [Stops, append, serialPrint, boot]
  · rw [settle_handler_serial rfl]
    cases hserial : locked .serial <;> simp [Stops, append, serialPrint, made]
  · rw [settle_handler_console]
    cases hserial : locked .serial <;> cases hconsole : locked .console <;>
      simp [Stops, append, serialPrint, ready, panicHandler]

/-- The machine when the handler has loaded the level. -/
theorem exec_raise (info : PanicInfo) (m : KernelMachine) :
    exec kernel (raise info m)
      = { m with contexts := ⟨none, panicHandler m.shared info⟩ :: m.contexts } := by
  rw [exec_enter rfl, List.append_nil]
  rfl

section AnyState

variable {calls : List Call} {m : KernelMachine}

/-- In every state of every run the setup is one of three. -/
theorem setup_cases (h : Reaches kernel (start boot (program calls)) m) :
    m.shared = boot ∨ m.shared = made ∨ m.shared = ready := by
  obtain ⟨a, hreach, hsim⟩ := simulates h
  obtain ⟨above, p, -, -, hmain⟩ := setUp_reaches hreach
  rw [hsim.shared] at hmain
  exact hmain.setup

/-- What a panic leaves on the devices, in the end. -/
theorem raise_settles (hs : m.shared = boot ∨ m.shared = made ∨ m.shared = ready)
    (info : PanicInfo) :
    ∃ n, ∀ k, n ≤ k →
      ((exec kernel)^[k] (raise info m)).out .serial
          = (if m.locked .serial then m.out .serial
            else m.out .serial ++ serialReport info)
        ∧ ((exec kernel)^[k] (raise info m)).out .console
          = if m.shared.panicLevel.toNat = 1 ∧ m.locked .serial = false
              ∧ m.locked .console = false
            then m.out .console ++ consoleReport info else m.out .console := by
  obtain ⟨hstops, -, hserial, hconsole⟩ := settle_handler m.locked info hs m.out
  have hload := exec_raise info m
  obtain ⟨n, hn⟩ := settles_forever kernel
    (show (exec kernel (raise info m)).contexts
      = ⟨none, panicHandler m.shared info⟩ :: m.contexts by rw [hload])
    (by rw [hload]; exact hstops)
  refine ⟨n + 1, fun k hk => ?_⟩
  obtain ⟨j, rfl⟩ := Nat.exists_eq_add_of_le' hk
  rw [← Nat.add_assoc, Function.iterate_succ_apply, hn (j + n) (Nat.le_add_left n j), hload]
  exact ⟨hserial, hconsole⟩

/-- The handler gets to its end if it finds no lock that is taken. -/
theorem raise_halts_iff (hs : m.shared = boot ∨ m.shared = made ∨ m.shared = ready)
    (info : PanicInfo) :
    (∃ n, Halted ((exec kernel)^[n] (raise info m)))
      ↔ m.locked .serial = false
        ∧ (m.shared.panicLevel.toNat = 1 → m.locked .console = false) := by
  obtain ⟨hstops, hdone, -⟩ := settle_handler m.locked info hs m.out
  have hload := exec_raise info m
  have htop : (exec kernel (raise info m)).contexts
      = ⟨none, panicHandler m.shared info⟩ :: m.contexts := by rw [hload]
  have hiff := halts_iff kernel htop (by rw [hload]; exact hstops)
  rw [hload] at hiff
  rw [← hdone, ← hiff, ← hload]
  constructor
  · rintro ⟨n, hn⟩
    cases n with
    | zero =>
        obtain ⟨below, hbelow⟩ := hn
        cases (List.cons.inj hbelow).1
    | succ n => exact ⟨n, hn⟩
  · rintro ⟨n, hn⟩
    exact ⟨n + 1, hn⟩

end AnyState

/-- **WHAT BECOMES OF A PANIC.**  A panic comes in any state of any run, and nothing comes
    after it.  Its handler gets to its end if and only if no context was stopped
    in the middle of a message on the serial port and, when there is a screen,
    none on the screen.  In the end the serial port has the report if it was
    not locked, the screen has it if neither was and there is a screen, and
    nothing else has been printed. -/
theorem panic_reported_iff (calls : List Call) (m : KernelMachine)
    (h : Reaches kernel (start boot (program calls)) m) (info : PanicInfo) :
    ((∃ n, Halted ((exec kernel)^[n] (raise info m)))
        ↔ (∀ c ∈ m.contexts, c.writesOn .serial = false)
          ∧ (m.shared.panicLevel.toNat = 1 → ∀ c ∈ m.contexts, c.writesOn .console = false))
      ∧ ∃ n, ∀ k, n ≤ k →
        ((exec kernel)^[k] (raise info m)).out .serial
            = (if m.locked .serial then m.out .serial
              else m.out .serial ++ serialReport info)
          ∧ ((exec kernel)^[k] (raise info m)).out .console
            = if m.shared.panicLevel.toNat = 1 ∧ m.locked .serial = false
                ∧ m.locked .console = false
              then m.out .console ++ consoleReport info else m.out .console := by
  obtain ⟨a, hreach, hsim⟩ := simulates h
  have hfree : ∀ d, m.locked d = false ↔ ∀ c ∈ m.contexts, c.writesOn d = false := by
    intro d
    rw [← Bool.not_eq_true, hsim.locked_iff d]
    simp
  refine ⟨?_, raise_settles (setup_cases h) info⟩
  rw [← hfree, ← hfree]
  exact raise_halts_iff (setup_cases h) info

/-- A panic in the middle of a message on the serial port is never reported. -/
theorem panic_reported_sample :
    ¬ ∃ n, Halted ((exec kernel)^[n] (raise "explicit panic" sampleMachine)) := by
  rw [(panic_reported_iff [.serialPrint "Hi"] sampleMachine sampleMachine_reached
    "explicit panic").1]
  rintro ⟨hserial, -⟩
  have hnot := hserial ⟨some (.serial, [.writeChar 'i']), []⟩ (by
    rw [sampleMachine_contexts]
    exact List.mem_cons_self)
  cases hnot

end Reports

end KermolPanic
