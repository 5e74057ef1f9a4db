import Mathlib.Logic.Relation
import Mathlib.Logic.Function.Iterate

/-! # Contexts that are interrupted and never resumed

    One processor runs a stack of contexts.  The one on top prints messages on
    devices and acts on shared state; at any time a new context can start above
    it, and the ones below never run again.  A message is printed under the lock
    of its device, symbol by symbol, and the lock is a flag to spin on: a
    context that stops in the middle of a message keeps it for good.

    Two things follow for every such system.  Printing is as good as atomic:
    every run is a run of a machine that prints whole messages and has no
    locks, up to the message that is under way (`simulates`).  And a program on
    top settles: it runs to its end or to the first message for a device that is
    locked (`settles`). -/

namespace Preemption

variable {D α X S I : Type}

/-! ## The machine -/

/-- What a context does: print a message on a device, act on the shared state, or
    go on with the handler of an interruption. -/
inductive Op (D α X I : Type) where
  | print (d : D) (message : List α)
  | act (x : X)
  | enter (info : I)

/-- A context: what is left of the message it is printing, and what it does
    then. -/
structure Context (D α X I : Type) where
  writing : Option (D × List α)
  rest : List (Op D α X I)

structure Machine (D α X S I : Type) where
  shared : S
  locked : D → Bool
  out : D → List α
  contexts : List (Context D α X I)

/-- What the actions do, or how they fail, and what is done about an
    interruption. -/
structure System (D α X S I : Type) where
  effect : X → S → Except I S
  handler : S → I → List (Op D α X I)

variable (sys : System D α X S I)

/-- A new context on top. -/
def raise (info : I) (m : Machine D α X S I) : Machine D α X S I :=
  { m with contexts := ⟨none, [.enter info]⟩ :: m.contexts }

/-- One step of the context on top.  A context that waits for a lock, and one that
    is done, stay as they are. -/
def exec [DecidableEq D] (m : Machine D α X S I) : Machine D α X S I :=
  match m.contexts with
  | [] => m
  | ⟨some (d, a :: as), rest⟩ :: below =>
      { m with out := Function.update m.out d (m.out d ++ [a])
               contexts := ⟨some (d, as), rest⟩ :: below }
  | ⟨some (d, []), rest⟩ :: below =>
      { m with locked := Function.update m.locked d false
               contexts := ⟨none, rest⟩ :: below }
  | ⟨none, []⟩ :: _ => m
  | ⟨none, .print d message :: rest⟩ :: below =>
      if m.locked d then m
      else { m with locked := Function.update m.locked d true
                    contexts := ⟨some (d, message), rest⟩ :: below }
  | ⟨none, .act x :: rest⟩ :: below =>
      match sys.effect x m.shared with
      | .ok s => { m with shared := s, contexts := ⟨none, rest⟩ :: below }
      | .error info => raise info m
  | ⟨none, .enter info :: rest⟩ :: below =>
      { m with contexts := ⟨none, sys.handler m.shared info ++ rest⟩ :: below }

/-- A step of the machine: the context on top goes on, or it is interrupted. -/
inductive Step [DecidableEq D] (m : Machine D α X S I) : Machine D α X S I → Prop
  | exec : Step m (exec sys m)
  | raise (info : I) : Step m (raise info m)

/-- Every order of steps and interruptions. -/
def Reaches [DecidableEq D] : Machine D α X S I → Machine D α X S I → Prop :=
  Relation.ReflTransGen (Step sys)

/-- Running on is a run. -/
theorem reaches_iterate [DecidableEq D] (m : Machine D α X S I) (n : Nat) :
    Reaches sys m ((exec sys)^[n] m) := by
  induction n with
  | zero => exact .refl
  | succ n ih =>
      rw [Function.iterate_succ_apply']
      exact ih.tail .exec

/-- One program, and nothing printed. -/
def start (s : S) (program : List (Op D α X I)) : Machine D α X S I where
  shared := s
  locked := fun _ => false
  out := fun _ => []
  contexts := [⟨none, program⟩]

/-! ## Steps, one by one -/

section Steps

variable [DecidableEq D] {sys} {m : Machine D α X S I} {d : D} {a : α} {as message : List α}
  {rest : List (Op D α X I)} {below : List (Context D α X I)} {x : X} {s : S} {info : I}

theorem exec_emit (h : m.contexts = ⟨some (d, a :: as), rest⟩ :: below) :
    exec sys m = { m with out := Function.update m.out d (m.out d ++ [a])
                          contexts := ⟨some (d, as), rest⟩ :: below } := by
  rw [exec, h]

theorem exec_release (h : m.contexts = ⟨some (d, []), rest⟩ :: below) :
    exec sys m = { m with locked := Function.update m.locked d false
                          contexts := ⟨none, rest⟩ :: below } := by
  rw [exec, h]

theorem exec_done (h : m.contexts = ⟨none, []⟩ :: below) : exec sys m = m := by
  rw [exec, h]

theorem exec_spin (h : m.contexts = ⟨none, .print d message :: rest⟩ :: below)
    (hlock : m.locked d = true) : exec sys m = m := by
  rw [exec, h]
  exact if_pos hlock

theorem exec_acquire (h : m.contexts = ⟨none, .print d message :: rest⟩ :: below)
    (hlock : m.locked d = false) :
    exec sys m = { m with locked := Function.update m.locked d true
                          contexts := ⟨some (d, message), rest⟩ :: below } := by
  rw [exec, h]
  exact if_neg (by rw [hlock]; decide)

theorem exec_act (h : m.contexts = ⟨none, .act x :: rest⟩ :: below)
    (heffect : sys.effect x m.shared = .ok s) :
    exec sys m = { m with shared := s, contexts := ⟨none, rest⟩ :: below } := by
  rw [exec, h]
  dsimp only
  rw [heffect]

theorem exec_fail (h : m.contexts = ⟨none, .act x :: rest⟩ :: below)
    (heffect : sys.effect x m.shared = .error info) : exec sys m = raise info m := by
  rw [exec, h]
  dsimp only
  rw [heffect]

theorem exec_enter (h : m.contexts = ⟨none, .enter info :: rest⟩ :: below) :
    exec sys m
      = { m with contexts := ⟨none, sys.handler m.shared info ++ rest⟩ :: below } := by
  rw [exec, h]

end Steps

/-! ## Printing without locks -/

/-- The same contexts, but a message is printed in one step and there are no
    locks. -/
structure Atomic (D α X S I : Type) where
  shared : S
  log : D → List (List α)
  programs : List (List (Op D α X I))

inductive Atomic.Step [DecidableEq D] : Atomic D α X S I → Atomic D α X S I → Prop
  | print (s : S) (log : D → List (List α)) (d : D) (message : List α)
      (rest : List (Op D α X I)) (below : List (List (Op D α X I))) :
      Step ⟨s, log, (.print d message :: rest) :: below⟩
        ⟨s, Function.update log d (log d ++ [message]), rest :: below⟩
  | act {s s' : S} {x : X} (log : D → List (List α)) (rest : List (Op D α X I))
      (below : List (List (Op D α X I))) : sys.effect x s = .ok s' →
      Step ⟨s, log, (.act x :: rest) :: below⟩ ⟨s', log, rest :: below⟩
  | enter (s : S) (log : D → List (List α)) (info : I) (rest : List (Op D α X I))
      (below : List (List (Op D α X I))) :
      Step ⟨s, log, (.enter info :: rest) :: below⟩
        ⟨s, log, (sys.handler s info ++ rest) :: below⟩
  | raise (s : S) (log : D → List (List α)) (programs : List (List (Op D α X I))) (info : I) :
      Step ⟨s, log, programs⟩ ⟨s, log, [.enter info] :: programs⟩

def Atomic.Reaches [DecidableEq D] : Atomic D α X S I → Atomic D α X S I → Prop :=
  Relation.ReflTransGen (Atomic.Step sys)

def Atomic.start (s : S) (program : List (Op D α X I)) : Atomic D α X S I where
  shared := s
  log := fun _ => []
  programs := [program]

section Simulation

variable [DecidableEq D]

/-- The context is printing on the device. -/
def Context.writesOn (d : D) (c : Context D α X I) : Bool :=
  match c.writing with
  | some (d', _) => d' = d
  | none => false

/-- What is left of the message that it prints there. -/
def Context.left (d : D) (c : Context D α X I) : List α :=
  match c.writing with
  | some (d', as) => if d' = d then as else []
  | none => []

/-- What is left of the messages under way on a device. -/
def pending (cs : List (Context D α X I)) (d : D) : List α := cs.flatMap (Context.left d)

theorem pending_cons (c : Context D α X I) (cs : List (Context D α X I)) (d : D) :
    pending (c :: cs) d = c.left d ++ pending cs d := List.flatMap_cons

/-- Nothing is under way on a device that nobody prints on. -/
theorem pending_eq_nil {cs : List (Context D α X I)} {d : D}
    (h : cs.countP (Context.writesOn d) = 0) : pending cs d = [] := by
  rw [List.countP_eq_zero] at h
  refine List.flatMap_eq_nil_iff.mpr fun c hc => ?_
  have hnot := h c hc
  unfold Context.writesOn at hnot
  unfold Context.left
  split
  · next d' as hw =>
      rw [hw] at hnot
      exact if_neg (by simpa using hnot)
  · rfl

/-- A machine and the lock-free one at the same point: the outputs lack what is left of
    the messages under way, and there is at most one for each device. -/
structure Simulates (m : Machine D α X S I) (a : Atomic D α X S I) : Prop where
  shared : a.shared = m.shared
  programs : a.programs = m.contexts.map Context.rest
  out : ∀ d, m.out d ++ pending m.contexts d = (a.log d).flatten
  locked : ∀ d, m.contexts.countP (Context.writesOn d) = (m.locked d).toNat

theorem simulates_start (s : S) (program : List (Op D α X I)) :
    Simulates (start s program) (Atomic.start s program) where
  shared := rfl
  programs := rfl
  out := fun _ => rfl
  locked := fun _ => rfl

variable {m m' : Machine D α X S I} {a : Atomic D α X S I}

theorem simulates_raise (info : I) (h : Simulates m a) :
    ∃ a', Atomic.Step sys a a' ∧ Simulates (raise info m) a' := by
  obtain ⟨s, log, programs⟩ := a
  refine ⟨_, Atomic.Step.raise s log programs info, h.shared, ?_, h.out, fun d => ?_⟩
  · exact congrArg ([.enter info] :: ·) h.programs
  · rw [raise, List.countP_cons, h.locked d]
    rfl

/-- The context on top writes a symbol. -/
theorem simulates_emit {d : D} {b : α} {as : List α} {rest : List (Op D α X I)}
    {below : List (Context D α X I)} (h : Simulates m a)
    (htop : m.contexts = ⟨some (d, b :: as), rest⟩ :: below) : Simulates (exec sys m) a := by
  rw [exec_emit htop]
  refine ⟨h.shared, ?_, fun e => ?_, fun e => ?_⟩
  · rw [h.programs, htop]
    rfl
  · have hout := h.out e
    rw [htop, pending_cons] at hout
    rw [← hout]
    dsimp only
    rw [pending_cons]
    by_cases he : d = e
    · subst he
      simp [Context.left]
    · simp [Context.left, he, Function.update_of_ne (Ne.symm he)]
  · have hlocked := h.locked e
    rw [htop, List.countP_cons] at hlocked
    rw [← hlocked, List.countP_cons]
    rfl

/-- It has written all of its message. -/
theorem simulates_release {d : D} {rest : List (Op D α X I)}
    {below : List (Context D α X I)} (h : Simulates m a)
    (htop : m.contexts = ⟨some (d, []), rest⟩ :: below) : Simulates (exec sys m) a := by
  rw [exec_release htop]
  refine ⟨h.shared, ?_, fun e => ?_, fun e => ?_⟩
  · rw [h.programs, htop]
    rfl
  · have hout := h.out e
    rw [htop, pending_cons] at hout
    rw [← hout]
    dsimp only
    rw [pending_cons]
    simp [Context.left]
  · have hlocked := h.locked e
    rw [htop, List.countP_cons] at hlocked
    dsimp only
    rw [List.countP_cons]
    by_cases he : d = e
    · subst he
      -- the one who printed there was the context on top
      simp only [Context.writesOn, decide_true, if_true] at hlocked
      rw [Function.update_self]
      have hle := Bool.toNat_le (m.locked d)
      have hnone : below.countP (Context.writesOn d) = 0 := by omega
      rw [hnone]
      rfl
    · rw [Function.update_of_ne (Ne.symm he), ← hlocked]
      simp [Context.writesOn, he]

/-- A message begins: the lock-free machine prints it at once. -/
theorem simulates_acquire {d : D} {message : List α} {rest : List (Op D α X I)}
    {below : List (Context D α X I)} (h : Simulates m a)
    (htop : m.contexts = ⟨none, .print d message :: rest⟩ :: below)
    (hlock : m.locked d = false) :
    ∃ a', Atomic.Step sys a a' ∧ Simulates (exec sys m) a' := by
  obtain ⟨s, log, programs⟩ := a
  have hprograms := h.programs
  rw [htop] at hprograms
  dsimp only at hprograms
  subst hprograms
  rw [exec_acquire htop hlock]
  refine ⟨_, Atomic.Step.print s log d message rest (below.map Context.rest), h.shared, rfl,
    fun e => ?_, fun e => ?_⟩
  · have hout := h.out e
    rw [htop, pending_cons] at hout
    dsimp only
    rw [pending_cons]
    by_cases he : d = e
    · subst he
      -- nobody prints on a device that is not locked
      have hfree := h.locked d
      rw [hlock, htop, List.countP_cons] at hfree
      have hnone : pending below d = [] := pending_eq_nil (by simpa [Context.writesOn] using hfree)
      rw [hnone] at hout ⊢
      simp only [Context.left, List.append_nil, if_true] at hout ⊢
      rw [Function.update_self, List.flatten_append, ← hout]
      simp
    · rw [Function.update_of_ne (Ne.symm he), ← hout]
      simp [Context.left, he]
  · have hlocked := h.locked e
    rw [htop, List.countP_cons] at hlocked
    dsimp only
    rw [List.countP_cons]
    by_cases he : d = e
    · subst he
      rw [hlock] at hlocked
      rw [Function.update_self]
      simpa [Context.writesOn] using hlocked
    · rw [Function.update_of_ne (Ne.symm he), ← hlocked]
      simp [Context.writesOn, he]

theorem simulates_exec (h : Simulates m a) :
    ∃ a', Atomic.Reaches sys a a' ∧ Simulates (exec sys m) a' := by
  cases htop : m.contexts with
  | nil =>
      refine ⟨a, .refl, ?_⟩
      rw [exec, htop]
      exact h
  | cons c below =>
      obtain ⟨writing, rest⟩ := c
      cases writing with
      | some w =>
          obtain ⟨d, as⟩ := w
          cases as with
          | nil => exact ⟨a, .refl, simulates_release sys h htop⟩
          | cons b as => exact ⟨a, .refl, simulates_emit sys h htop⟩
      | none =>
          cases rest with
          | nil =>
              rw [exec_done htop]
              exact ⟨a, .refl, h⟩
          | cons op rest =>
              obtain ⟨s, log, programs⟩ := a
              have hshared := h.shared
              have hprograms := h.programs
              rw [htop] at hprograms
              dsimp only at hshared hprograms
              subst hshared hprograms
              have hout := h.out
              have hlocked := h.locked
              rw [htop] at hout hlocked
              cases op with
              | print d message =>
                  cases hlock : m.locked d with
                  | true =>
                      rw [exec_spin htop hlock]
                      exact ⟨_, .refl, h⟩
                  | false =>
                      obtain ⟨a', hstep, h'⟩ := simulates_acquire sys h htop hlock
                      exact ⟨a', .single hstep, h'⟩
              | act x =>
                  cases heffect : sys.effect x m.shared with
                  | ok s' =>
                      rw [exec_act htop heffect]
                      exact ⟨_, .single (.act log rest _ heffect), rfl, rfl, hout, hlocked⟩
                  | error info =>
                      rw [exec_fail htop heffect]
                      obtain ⟨a', hstep, h'⟩ := simulates_raise sys info h
                      exact ⟨a', .single hstep, h'⟩
              | enter info =>
                  rw [exec_enter htop]
                  exact ⟨_, .single (.enter m.shared log info rest _), rfl, rfl, hout, hlocked⟩

/-- A device is locked while somebody is in the middle of a message for it. -/
theorem Simulates.locked_iff (h : Simulates m a) (d : D) :
    m.locked d = true ↔ ∃ c ∈ m.contexts, c.writesOn d = true := by
  rw [← List.countP_pos_iff, h.locked d]
  cases m.locked d <;> decide

/-- Nothing is left to print on a device that is not locked. -/
theorem Simulates.pending_eq_nil (h : Simulates m a) {d : D} (hlock : m.locked d = false) :
    pending m.contexts d = [] := by
  refine Preemption.pending_eq_nil ?_
  rw [h.locked d, hlock]
  rfl

variable {sys}

/-- **PRINTING IS ATOMIC.**  Every run is a run of the machine without locks, up to what is
    left of the messages under way. -/
theorem simulates {s : S} {program : List (Op D α X I)} (h : Reaches sys (start s program) m) :
    ∃ a, Atomic.Reaches sys (Atomic.start s program) a ∧ Simulates m a := by
  induction h with
  | refl => exact ⟨_, .refl, simulates_start s program⟩
  | tail _ hstep ih =>
      obtain ⟨a, hreach, hsim⟩ := ih
      cases hstep with
      | exec =>
          obtain ⟨a', hreach', hsim'⟩ := simulates_exec sys hsim
          exact ⟨a', hreach.trans hreach', hsim'⟩
      | raise info =>
          obtain ⟨a', hstep', hsim'⟩ := simulates_raise sys info hsim
          exact ⟨a', hreach.tail hstep', hsim'⟩

end Simulation

/-! ## Settling -/

section Settling

/-- What a program comes to if it is not interrupted: the shared state, what it prints,
    and where it stops. -/
def settle (locked : D → Bool) : S → List (Op D α X I) →
    S × List (D × List α) × List (Op D α X I)
  | s, [] => (s, [], [])
  | s, .print d message :: rest =>
      if locked d then (s, [], .print d message :: rest)
      else
        let r := settle locked s rest
        (r.1, (d, message) :: r.2.1, r.2.2)
  | s, .act x :: rest =>
      match sys.effect x s with
      | .ok s' => settle locked s' rest
      | .error _ => (s, [], .act x :: rest)
  | s, .enter info :: rest => (s, [], .enter info :: rest)

/-- It stops at its end, or at a message. -/
def Stops : List (Op D α X I) → Prop
  | [] => True
  | .print _ _ :: _ => True
  | _ => False

variable {sys} {m : Machine D α X S I} {below : List (Context D α X I)}

/-- It stops at a message only if the device is locked. -/
theorem settle_locked {locked : D → Bool} {d : D} {message : List α}
    {rest program : List (Op D α X I)} :
    ∀ {s : S}, (settle sys locked s program).2.2 = .print d message :: rest →
      locked d = true := by
  induction program with
  | nil =>
      intro s h
      cases h
  | cons op program ih =>
      intro s h
      cases op with
      | print e text =>
          rw [settle] at h
          split at h
          · next hlock =>
              cases h
              exact hlock
          · exact ih h
      | act x =>
          rw [settle] at h
          split at h
          · exact ih h
          · cases h
      | enter info => cases h

variable [DecidableEq D]

/-- Messages behind what is there. -/
def append (printed : List (D × List α)) (out : D → List α) : D → List α :=
  printed.foldl (fun out p => Function.update out p.1 (out p.1 ++ p.2)) out

variable (sys)

/-- A message under way is printed to its end. -/
theorem exec_message {d : D} {as : List α} {rest : List (Op D α X I)} :
    ∀ {m : Machine D α X S I}, m.contexts = ⟨some (d, as), rest⟩ :: below →
      ∃ n, (exec sys)^[n] m
        = { m with out := Function.update m.out d (m.out d ++ as)
                   locked := Function.update m.locked d false
                   contexts := ⟨none, rest⟩ :: below } := by
  induction as with
  | nil =>
      intro m htop
      refine ⟨1, ?_⟩
      rw [Function.iterate_one, exec_release htop, List.append_nil, Function.update_eq_self]
  | cons b as ih =>
      intro m htop
      obtain ⟨n, hn⟩ := ih (m := exec sys m) (by rw [exec_emit htop])
      refine ⟨n + 1, ?_⟩
      rw [Function.iterate_succ_apply, hn, exec_emit htop]
      simp

/-- A message for a device that is not locked is printed. -/
theorem exec_print {d : D} {message : List α} {rest : List (Op D α X I)}
    (htop : m.contexts = ⟨none, .print d message :: rest⟩ :: below)
    (hlock : m.locked d = false) :
    ∃ n, (exec sys)^[n] m
      = { m with out := Function.update m.out d (m.out d ++ message)
                 contexts := ⟨none, rest⟩ :: below } := by
  have hacquired : (exec sys m).contexts = ⟨some (d, message), rest⟩ :: below := by
    rw [exec_acquire htop hlock]
  obtain ⟨n, hn⟩ := exec_message sys hacquired
  refine ⟨n + 1, ?_⟩
  have hlocks : Function.update (Function.update m.locked d true) d false = m.locked := by
    rw [Function.update_idem, ← hlock, Function.update_eq_self]
  rw [Function.iterate_succ_apply, hn, exec_acquire htop hlock]
  dsimp only
  rw [hlocks]

/-- The machine when the program on top has settled. -/
def settled (sys : System D α X S I) (m : Machine D α X S I) (program : List (Op D α X I))
    (below : List (Context D α X I)) : Machine D α X S I :=
  let r := settle sys m.locked m.shared program
  { m with shared := r.1, out := append r.2.1 m.out, contexts := ⟨none, r.2.2⟩ :: below }

/-- The first part of a program settles; what is behind it waits. -/
theorem settles_append {program rest : List (Op D α X I)} :
    ∀ {m : Machine D α X S I}, m.contexts = ⟨none, program ++ rest⟩ :: below →
      Stops (settle sys m.locked m.shared program).2.2 →
      ∃ n, (exec sys)^[n] m = { settled sys m program below with
        contexts := ⟨none, (settle sys m.locked m.shared program).2.2 ++ rest⟩ :: below } := by
  induction program with
  | nil =>
      intro m htop _
      refine ⟨0, ?_⟩
      show m = { m with contexts := ⟨none, rest⟩ :: below }
      rw [← List.nil_append rest, ← htop]
  | cons op program ih =>
      intro m htop hstops
      rw [List.cons_append] at htop
      cases op with
      | print d message =>
          cases hlock : m.locked d with
          | true =>
              refine ⟨0, ?_⟩
              rw [settled, settle, if_pos hlock]
              show m = { m with contexts := ⟨none, .print d message :: (program ++ rest)⟩ :: below }
              rw [← htop]
          | false =>
              rw [settle, if_neg (by rw [hlock]; decide)] at hstops
              obtain ⟨n₁, h₁⟩ := exec_print sys htop hlock
              obtain ⟨n₂, h₂⟩ := ih (m := (exec sys)^[n₁] m) (by rw [h₁]) (by rw [h₁]; exact hstops)
              refine ⟨n₂ + n₁, ?_⟩
              rw [Function.iterate_add_apply, h₂, h₁, settled, settled, settle,
                if_neg (by rw [hlock]; decide)]
              rfl
      | act x =>
          rw [settle] at hstops
          cases heffect : sys.effect x m.shared with
          | error info =>
              rw [heffect] at hstops
              exact absurd hstops id
          | ok s' =>
              rw [heffect] at hstops
              have h₁ := exec_act htop heffect
              obtain ⟨n, h₂⟩ := ih (m := exec sys m) (by rw [h₁]) (by rw [h₁]; exact hstops)
              refine ⟨n + 1, ?_⟩
              rw [Function.iterate_succ_apply, h₂, h₁, settled, settled, settle, heffect]
      | enter info => exact absurd hstops id

/-- **A PROGRAM SETTLES.** -/
theorem settles {program : List (Op D α X I)}
    (htop : m.contexts = ⟨none, program⟩ :: below)
    (hstops : Stops (settle sys m.locked m.shared program).2.2) :
    ∃ n, (exec sys)^[n] m = settled sys m program below := by
  obtain ⟨n, hn⟩ := settles_append sys
    (show m.contexts = ⟨none, program ++ []⟩ :: below by rw [List.append_nil, htop]) hstops
  refine ⟨n, hn.trans ?_⟩
  rw [List.append_nil]
  rfl

/-- Nothing moves a machine that has settled but an interruption. -/
theorem exec_settled {program : List (Op D α X I)}
    (hstops : Stops (settle sys m.locked m.shared program).2.2) :
    exec sys (settled sys m program below) = settled sys m program below := by
  cases hrest : (settle sys m.locked m.shared program).2.2 with
  | nil => exact exec_done (by rw [settled, hrest])
  | cons op rest =>
      cases op with
      | print d message =>
          have htop : (settled sys m program below).contexts
              = ⟨none, .print d message :: rest⟩ :: below := by rw [settled, hrest]
          exact exec_spin htop (settle_locked hrest)
      | act x =>
          rw [hrest] at hstops
          exact absurd hstops id
      | enter info =>
          rw [hrest] at hstops
          exact absurd hstops id

/-- A program that is not interrupted settles for good. -/
theorem settles_forever {program : List (Op D α X I)}
    (htop : m.contexts = ⟨none, program⟩ :: below)
    (hstops : Stops (settle sys m.locked m.shared program).2.2) :
    ∃ n, ∀ k, n ≤ k → (exec sys)^[k] m = settled sys m program below := by
  obtain ⟨n, hn⟩ := settles sys htop hstops
  refine ⟨n, fun k hk => ?_⟩
  obtain ⟨j, rfl⟩ := Nat.exists_eq_add_of_le' hk
  rw [Function.iterate_add_apply, hn, Function.iterate_fixed (exec_settled sys hstops)]

/-- The context on top is done. -/
def Halted (m : Machine D α X S I) : Prop := ∃ below, m.contexts = ⟨none, []⟩ :: below

/-- A machine that is done stays as it is, unless it is interrupted. -/
theorem Halted.stays {n k : Nat} (h : Halted ((exec sys)^[n] m)) (hk : n ≤ k) :
    (exec sys)^[k] m = (exec sys)^[n] m := by
  obtain ⟨below, hbelow⟩ := h
  obtain ⟨j, rfl⟩ := Nat.exists_eq_add_of_le' hk
  rw [Function.iterate_add_apply, Function.iterate_fixed (exec_done hbelow)]

/-- **WHEN IT COMES TO ITS END.**  A program that is not interrupted is done at some time
    if and only if it does not stop at a message. -/
theorem halts_iff {program : List (Op D α X I)} (htop : m.contexts = ⟨none, program⟩ :: below)
    (hstops : Stops (settle sys m.locked m.shared program).2.2) :
    (∃ n, Halted ((exec sys)^[n] m)) ↔ (settle sys m.locked m.shared program).2.2 = [] := by
  obtain ⟨n, hn⟩ := settles_forever sys htop hstops
  constructor
  · rintro ⟨k, below', hk⟩
    -- a context that is done stays so until the program has settled
    have hlater := hn (n + k) (Nat.le_add_right n k)
    rw [Function.iterate_add_apply, Function.iterate_fixed (exec_done hk)] at hlater
    rw [hlater] at hk
    exact congrArg Context.rest (List.cons.inj hk).1
  · intro hdone
    refine ⟨n, below, ?_⟩
    rw [hn n (Nat.le_refl n), settled, hdone]

end Settling

end Preemption
