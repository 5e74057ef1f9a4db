import Mathlib.Algebra.Group.Nat.Defs

/-! # Panicking and fallible computations

    A method of the shape `fn f(&mut self, ..) -> Result<T, E>` can do three
    things: panic, return `Err` with whatever it already changed, or return
    `Ok`.  `Fallible ε σ α` keeps the three apart.  An `Err` carries the state
    it leaves behind, a panic does not: after a panic nothing runs any more.

    `andThen` is the `?` operator and `forEach` a `for` loop whose body ends in
    `?`.  Both come with the inversion lemma that later proofs use in place of
    unfolding. -/

namespace RustEffect

/-- The ways compiled code stops: a failed assertion or `unwrap`, an index out
    of range, an arithmetic overflow, a rejected address, `todo!()` or
    `unreachable!()`, an explicit `panic!`. -/
inductive Panic where
  | assertFailed
  | unwrapFailed
  | indexOutOfBounds
  | overflow
  | invalidAddress
  | todo
  | unreachable
  | explicit
deriving DecidableEq, Repr

/-- A computation that returns a value or panics. -/
abbrev Panics (α : Type) := Except Panic α

/-- What a `&mut self` method returning a `Result` does to its state. -/
abbrev Fallible (ε σ α : Type) := Panics (Except ε α × σ)

variable {ε σ α β ι : Type}

@[simp] theorem ok_bind (a : α) (f : α → Panics β) :
    (Except.ok a >>= f) = f a := rfl

@[simp] theorem pure_eq_ok (a : α) : (pure a : Panics α) = .ok a := rfl

/-- A sequence returns exactly when both halves return. -/
theorem bind_eq_ok {x : Panics α} {f : α → Panics β} {b : β} :
    (x >>= f) = .ok b ↔ ∃ a, x = .ok a ∧ f a = .ok b := by
  cases x with
  | error p =>
      constructor
      · intro h
        cases h
      · rintro ⟨a, ha, -⟩
        cases ha
  | ok a =>
      constructor
      · intro h
        exact ⟨a, rfl, h⟩
      · rintro ⟨a', ha, hf⟩
        cases ha
        exact hf

/-- The `?` operator: stop at an error and keep the state it left. -/
def andThen (x : Fallible ε σ α) (f : α → σ → Fallible ε σ β) :
    Fallible ε σ β :=
  match x with
  | .error p => .error p
  | .ok (.error e, s) => .ok (.error e, s)
  | .ok (.ok a, s) => f a s

@[simp] theorem andThen_ok (a : α) (s : σ) (f : α → σ → Fallible ε σ β) :
    andThen (.ok (.ok a, s)) f = f a s := rfl

@[simp] theorem andThen_err (e : ε) (s : σ) (f : α → σ → Fallible ε σ β) :
    andThen (.ok (.error e, s)) f = .ok (.error e, s) := rfl

/-- Inversion of `?`: either the first half stopped with the error, or it
    returned and the rest ran. -/
theorem andThen_cases {x : Fallible ε σ α} {f : α → σ → Fallible ε σ β}
    {r : Except ε β} {s' : σ} (h : andThen x f = .ok (r, s')) :
    (∃ e, x = .ok (.error e, s') ∧ r = .error e)
      ∨ ∃ a s, x = .ok (.ok a, s) ∧ f a s = .ok (r, s') := by
  match x, h with
  | .ok (.error e, s), h =>
      rw [andThen_err] at h
      cases h
      exact Or.inl ⟨e, rfl, rfl⟩
  | .ok (.ok a, s), h => exact Or.inr ⟨a, s, rfl, h⟩

/-- Inversion of a `?` sequence that returned `Ok`. -/
theorem andThen_eq_ok {x : Fallible ε σ α} {f : α → σ → Fallible ε σ β}
    {b : β} {s' : σ} (h : andThen x f = .ok (.ok b, s')) :
    ∃ a s, x = .ok (.ok a, s) ∧ f a s = .ok (.ok b, s') := by
  rcases andThen_cases h with ⟨e, -, he⟩ | hok
  · cases he
  · exact hok

theorem andThen_assoc {γ : Type} (x : Fallible ε σ α) (f : α → σ → Fallible ε σ β)
    (g : β → σ → Fallible ε σ γ) :
    andThen (andThen x f) g = andThen x fun a s => andThen (f a s) g := by
  cases x with
  | error p => rfl
  | ok r =>
      obtain ⟨answer, s⟩ := r
      cases answer with
      | error e => rfl
      | ok a => rfl

/-- Two continuations that agree on what the first half returns. -/
theorem andThen_congr {x : Fallible ε σ α} {f g : α → σ → Fallible ε σ β}
    (h : ∀ a s, x = .ok (.ok a, s) → f a s = g a s) : andThen x f = andThen x g := by
  cases x with
  | error p => rfl
  | ok r =>
      obtain ⟨answer, s⟩ := r
      cases answer with
      | error e => rfl
      | ok a => exact h a s rfl

/-- `for x in xs { body(x)?; }` -/
def forEach (body : ι → σ → Fallible ε σ Unit) :
    List ι → σ → Fallible ε σ Unit
  | [], s => .ok (.ok (), s)
  | x :: xs, s => andThen (body x s) fun _ s' => forEach body xs s'

@[simp] theorem forEach_nil (body : ι → σ → Fallible ε σ Unit) (s : σ) :
    forEach body [] s = .ok (.ok (), s) := rfl

theorem forEach_cons (body : ι → σ → Fallible ε σ Unit) (x : ι)
    (xs : List ι) (s : σ) :
    forEach body (x :: xs) s
      = andThen (body x s) fun _ s' => forEach body xs s' := rfl

theorem forEach_singleton (body : ι → σ → Fallible ε σ Unit) (x : ι) (s : σ) :
    forEach body [x] s = body x s := by
  rw [forEach_cons]
  cases body x s with
  | error p => rfl
  | ok r =>
      obtain ⟨answer, s'⟩ := r
      cases answer with
      | error e => rfl
      | ok u => rfl

theorem forEach_map {κ : Type} (body : ι → σ → Fallible ε σ Unit) (g : κ → ι)
    (xs : List κ) : ∀ s, forEach body (xs.map g) s = forEach (fun x => body (g x)) xs s := by
  induction xs with
  | nil => intro s; rfl
  | cons x xs ih =>
      intro s
      rw [List.map_cons, forEach_cons, forEach_cons]
      simp only [ih]

/-- **LOOP INVARIANT.**  What every iteration preserves, whether it returns or
    stops with an error, holds of the state the loop leaves. -/
theorem forEach_invariant {body : ι → σ → Fallible ε σ Unit} {P : σ → Prop}
    {xs : List ι}
    (hbody : ∀ x ∈ xs, ∀ s r s', P s → body x s = .ok (r, s') → P s') :
    ∀ {s s' : σ} {r : Except ε Unit}, P s →
      forEach body xs s = .ok (r, s') → P s' := by
  induction xs with
  | nil =>
      intro s s' r hP h
      cases h
      exact hP
  | cons x xs ih =>
      intro s s' r hP h
      rw [forEach_cons] at h
      rcases andThen_cases h with ⟨e, hx, -⟩ | ⟨_, s₁, hx, hrest⟩
      · exact hbody x List.mem_cons_self s _ s' hP hx
      · have hP₁ : P s₁ := hbody x List.mem_cons_self s _ s₁ hP hx
        exact ih (fun y hy => hbody y (List.mem_cons_of_mem x hy)) hP₁ hrest

/-- The same for a loop that returned `Ok`, where every iteration did. -/
theorem forEach_ok_invariant {body : ι → σ → Fallible ε σ Unit} {P : σ → Prop}
    {xs : List ι} (hbody : ∀ x ∈ xs, ∀ s s', P s → body x s = .ok (.ok (), s') → P s') :
    ∀ {s s' : σ}, P s → forEach body xs s = .ok (.ok (), s') → P s' := by
  induction xs with
  | nil =>
      intro s s' hP h
      cases h
      exact hP
  | cons x xs ih =>
      intro s s' hP h
      rw [forEach_cons] at h
      obtain ⟨_, s₁, hx, hrest⟩ := andThen_eq_ok h
      exact ih (fun y hy => hbody y (List.mem_cons_of_mem x hy))
        (hbody x List.mem_cons_self s s₁ hP hx) hrest

/-- A loop returns `Ok` when every iteration does, in every state that the ones
    before can leave. -/
theorem forEach_total {body : ι → σ → Fallible ε σ Unit} {P : σ → Prop} {xs : List ι}
    (hbody : ∀ x ∈ xs, ∀ s, P s → ∃ s', body x s = .ok (.ok (), s') ∧ P s') :
    ∀ {s : σ}, P s → ∃ s', forEach body xs s = .ok (.ok (), s') := by
  induction xs with
  | nil => intro s _; exact ⟨s, rfl⟩
  | cons x xs ih =>
      intro s hP
      obtain ⟨s₁, h₁, hP₁⟩ := hbody x List.mem_cons_self s hP
      obtain ⟨s', h₂⟩ := ih (fun y hy => hbody y (List.mem_cons_of_mem x hy)) hP₁
      exact ⟨s', by rw [forEach_cons, h₁, andThen_ok, h₂]⟩

/-- Every iteration of a loop that returned `Ok` did, in some state. -/
theorem forEach_ok_each {body : ι → σ → Fallible ε σ Unit} {xs : List ι} :
    ∀ {s s' : σ}, forEach body xs s = .ok (.ok (), s') →
      ∀ x ∈ xs, ∃ t t', body x t = .ok (.ok (), t') := by
  induction xs with
  | nil => exact nofun
  | cons y xs ih =>
      intro s s' h x hx
      rw [forEach_cons] at h
      obtain ⟨_, s₁, hy, hrest⟩ := andThen_eq_ok h
      rcases List.mem_cons.mp hx with rfl | hx
      · exact ⟨s, s₁, hy⟩
      · exact ih hrest x hx

/-- **WHEN A LOOP RETURNS `Ok`.**  If an iteration depends on its element only, in every
    state that the ones before can leave, so does the loop. -/
theorem forEach_returns_iff {body : ι → σ → Fallible ε σ Unit} {P : σ → Prop}
    {C : ι → Prop} {xs : List ι}
    (hreturns : ∀ x ∈ xs, ∀ s, P s → ((∃ s', body x s = .ok (.ok (), s')) ↔ C x))
    (hkeep : ∀ x ∈ xs, ∀ s s', P s → body x s = .ok (.ok (), s') → P s') :
    ∀ {s : σ}, P s → ((∃ s', forEach body xs s = .ok (.ok (), s')) ↔ ∀ x ∈ xs, C x) := by
  induction xs with
  | nil => exact fun _ => iff_of_true ⟨_, rfl⟩ nofun
  | cons x xs ih =>
      intro s hP
      rw [List.forall_mem_cons, ← hreturns x List.mem_cons_self s hP]
      have hrest : ∀ s₁, body x s = .ok (.ok (), s₁) →
          ((∃ s', forEach body xs s₁ = .ok (.ok (), s')) ↔ ∀ y ∈ xs, C y) := fun s₁ hx =>
        ih (fun y hy => hreturns y (List.mem_cons_of_mem x hy))
          (fun y hy => hkeep y (List.mem_cons_of_mem x hy))
          (hkeep x List.mem_cons_self s s₁ hP hx)
      constructor
      · rintro ⟨s', h⟩
        rw [forEach_cons] at h
        obtain ⟨_, s₁, hx, h⟩ := andThen_eq_ok h
        exact ⟨⟨s₁, hx⟩, (hrest s₁ hx).mp ⟨s', h⟩⟩
      · rintro ⟨⟨s₁, hx⟩, hall⟩
        obtain ⟨s', h⟩ := (hrest s₁ hx).mpr hall
        exact ⟨s', by rw [forEach_cons, hx, andThen_ok, h]⟩

/-- Loops whose bodies agree where the first returns `Ok`; their errors may be of
    different types. -/
theorem forEach_ok_congr {ε' : Type} {body : ι → σ → Fallible ε σ Unit}
    {body' : ι → σ → Fallible ε' σ Unit} {xs : List ι}
    (hbody : ∀ x ∈ xs, ∀ s s', body x s = .ok (.ok (), s') → body' x s = .ok (.ok (), s')) :
    ∀ {s s' : σ}, forEach body xs s = .ok (.ok (), s') →
      forEach body' xs s = .ok (.ok (), s') := by
  induction xs with
  | nil => intro s s' h; cases h; rfl
  | cons x xs ih =>
      intro s s' h
      rw [forEach_cons] at h ⊢
      obtain ⟨_, s₁, h₁, h₂⟩ := andThen_eq_ok h
      rw [hbody x List.mem_cons_self s s₁ h₁, andThen_ok]
      exact ih (fun y hy => hbody y (List.mem_cons_of_mem x hy)) h₂

/-- A loop over two lists is the one loop after the other. -/
theorem forEach_append (body : ι → σ → Fallible ε σ Unit) (xs ys : List ι) :
    ∀ s, forEach body (xs ++ ys) s
      = andThen (forEach body xs s) fun _ s' => forEach body ys s' := by
  induction xs with
  | nil => intro s; rfl
  | cons x xs ih =>
      intro s
      rw [List.cons_append, forEach_cons, forEach_cons]
      match body x s with
      | .error p => rfl
      | .ok (.error e, s₁) => rfl
      | .ok (.ok u, s₁) => exact ih s₁

/-- A loop over a list of lists is a loop of loops. -/
theorem forEach_flatMap {κ : Type} (body : ι → σ → Fallible ε σ Unit) (g : κ → List ι)
    (xs : List κ) :
    ∀ s, forEach body (xs.flatMap g) s = forEach (fun x => forEach body (g x)) xs s := by
  induction xs with
  | nil => intro s; rfl
  | cons x xs ih =>
      intro s
      rw [List.flatMap_cons, forEach_append, forEach_cons]
      simp only [ih]

/-- **INVERSION OF A FAILED LOOP.**  Some iterations returned `Ok`, the next one
    stopped with the error. -/
theorem forEach_error {body : ι → σ → Fallible ε σ Unit} {e : ε} {xs : List ι} :
    ∀ {s s' : σ}, forEach body xs s = .ok (.error e, s') →
      ∃ done x rest s₁, xs = done ++ x :: rest ∧ forEach body done s = .ok (.ok (), s₁)
        ∧ body x s₁ = .ok (.error e, s') := by
  induction xs with
  | nil => intro s s' h; cases h
  | cons x xs ih =>
      intro s s' h
      rw [forEach_cons] at h
      rcases andThen_cases h with ⟨e', hx, he⟩ | ⟨_, s₁, hx, hrest⟩
      · cases he
        exact ⟨[], x, xs, s, rfl, rfl, hx⟩
      · obtain ⟨done, y, rest, s₂, rfl, hdone, hy⟩ := ih hrest
        exact ⟨x :: done, y, rest, s₂, rfl, by rw [forEach_cons, hx, andThen_ok, hdone], hy⟩

/-! ## Arithmetic and loops that may panic -/

/-- A sum or product of type `usize`. -/
def usize (n : Nat) : Panics Nat := if n < 2 ^ 64 then .ok n else .error .overflow

/-- A difference of type `usize`. -/
def usizeSub (m n : Nat) : Panics Nat := if n ≤ m then .ok (m - n) else .error .overflow

theorem usize_ok {n : Nat} (h : n < 2 ^ 64) : usize n = .ok n := if_pos h

theorem usizeSub_ok {m n : Nat} (h : n ≤ m) : usizeSub m n = .ok (m - n) := if_pos h

theorem foldlM_cons {body : σ → ι → Panics σ} {x : ι} {xs : List ι} {s s₁ : σ}
    (h : body s x = .ok s₁) : (x :: xs).foldlM body s = xs.foldlM body s₁ := by
  rw [List.foldlM_cons, h, ok_bind]

/-- **SIMULATION OF A LOOP.**  When every iteration returns and keeps a relation
    to an abstract step, so does the loop. -/
theorem foldlM_sim {τ : Type} {body : σ → ι → Panics σ} {g : τ → ι → τ}
    {R : σ → τ → Prop} (xs : List ι) :
    ∀ {s : σ} {t : τ},
      (∀ x ∈ xs, ∀ s t, R s t → ∃ s', body s x = .ok s' ∧ R s' (g t x)) → R s t →
      ∃ s', xs.foldlM body s = .ok s' ∧ R s' (xs.foldl g t) := by
  induction xs with
  | nil =>
      intro s t _ h
      exact ⟨s, rfl, h⟩
  | cons x xs ih =>
      intro s t hstep h
      obtain ⟨s₁, hbody, h₁⟩ := hstep x List.mem_cons_self s t h
      obtain ⟨s', hrest, h'⟩ := ih (fun y hy => hstep y (List.mem_cons_of_mem x hy)) h₁
      exact ⟨s', by rw [foldlM_cons hbody, hrest], h'⟩

/-- A loop whose iterations return and keep an invariant returns and keeps it. -/
theorem foldlM_invariant {body : σ → ι → Panics σ} {P : σ → Prop} (xs : List ι) {s : σ}
    (hstep : ∀ x ∈ xs, ∀ s, P s → ∃ s', body s x = .ok s' ∧ P s') (h : P s) :
    ∃ s', xs.foldlM body s = .ok s' ∧ P s' :=
  foldlM_sim (R := fun s (_ : Unit) => P s) (g := fun t _ => t) (t := ()) xs
    (fun x hx s _ hs => hstep x hx s hs) h

/-- A loop over `0 .. n` whose invariant counts the iterations. -/
theorem foldlM_range {body : σ → Nat → Panics σ} (P : Nat → σ → Prop) {n : Nat} {s : σ}
    (hstep : ∀ i < n, ∀ s, P i s → ∃ s', body s i = .ok s' ∧ P (i + 1) s') (h : P 0 s) :
    ∃ s', (List.range n).foldlM body s = .ok s' ∧ P n s' := by
  induction n with
  | zero => exact ⟨s, rfl, h⟩
  | succ n ih =>
      obtain ⟨s₁, hfirst, h₁⟩ := ih fun i hi => hstep i (by omega)
      obtain ⟨s', hlast, h'⟩ := hstep n (by omega) s₁ h₁
      refine ⟨s', ?_, h'⟩
      rw [List.range_succ, List.foldlM_append, hfirst, ok_bind, foldlM_cons hlast]
      rfl

/-! ## Two computations in lockstep -/

section Lockstep

variable {τ γ δ : Type}

/-- A computation panics exactly when its abstract counterpart has no result,
    and else the two results are related. -/
inductive Lockstep (R : α → τ → Prop) : Panics α → Option τ → Prop
  | panics (p : Panic) : Lockstep R (.error p) none
  | returns {a : α} {t : τ} (h : R a t) : Lockstep R (.ok a) (some t)

namespace Lockstep

variable {R : α → τ → Prop} {S : γ → δ → Prop} {x : Panics α} {y : Option τ}

theorem bind {f : α → Panics γ} {g : τ → Option δ} (h : Lockstep R x y)
    (hf : ∀ a t, R a t → Lockstep S (f a) (g t)) : Lockstep S (x >>= f) (y >>= g) := by
  cases h with
  | panics p => exact .panics p
  | returns h => exact hf _ _ h

/-- The iterations of a loop in lockstep. -/
theorem foldlM {body : α → ι → Panics α} {g : τ → ι → Option τ} (xs : List ι)
    (hstep : ∀ x a t, R a t → Lockstep R (body a x) (g t x)) :
    ∀ {a : α} {t : τ}, R a t → Lockstep R (xs.foldlM body a) (xs.foldlM g t) := by
  induction xs with
  | nil => exact fun h => .returns h
  | cons x xs ih =>
      intro a t h
      rw [List.foldlM_cons, List.foldlM_cons]
      exact (hstep x a t h).bind fun a t h => ih h

theorem returns_iff (h : Lockstep R x y) : (∃ a, x = .ok a) ↔ ∃ t, y = some t := by
  cases h with
  | panics p =>
      constructor
      · rintro ⟨a, ha⟩
        cases ha
      · rintro ⟨t, ht⟩
        cases ht
  | returns h => exact ⟨fun _ => ⟨_, rfl⟩, fun _ => ⟨_, rfl⟩⟩

theorem related {a : α} (h : Lockstep R x y) (ha : x = .ok a) : ∃ t, y = some t ∧ R a t := by
  cases h with
  | panics p => cases ha
  | returns h =>
      cases ha
      exact ⟨_, rfl, h⟩

end Lockstep

end Lockstep

end RustEffect
