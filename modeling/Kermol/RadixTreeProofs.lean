import Mathlib.Data.Set.Insert
import Mathlib.Data.List.Induction
import Mathlib.Logic.Function.Basic

/-! # Radix trees in a heap

    A heap of nodes `mem : N → I → E`: every node has one entry for each
    index, and an entry may name a child node.  `walk` follows a path of
    indices from a node.  Nothing keeps two paths from meeting; `Unshared`
    says that, among the paths of a prefix-closed family `A`, none do.

    The two facts that every proof about such a tree needs are here:
    * writing an entry below which no path of `A` continues leaves every walk
      along `A` as it was (`walk_setEntry_leaf`);
    * linking a fresh, cleared node under an empty entry adds exactly one path
      (`walk_link`), so the tree stays unshared (`unshared_link`). -/

namespace RadixTree

variable {N I E : Type}

/-- Follow a path of indices from a node. -/
def walk (child : E → Option N) (mem : N → I → E) : N → List I → Option N
  | n, [] => some n
  | n, i :: p =>
      match child (mem n i) with
      | none => none
      | some m => walk child mem m p

variable {child : E → Option N} {mem : N → I → E} {root : N}

theorem walk_cons (n : N) (i : I) (p : List I) :
    walk child mem n (i :: p)
      = (child (mem n i)).bind fun m => walk child mem m p := by
  show (match child (mem n i) with
    | none => none
    | some m => walk child mem m p) = _
  cases child (mem n i) with
  | none => rfl
  | some m => rfl

theorem walk_append (p q : List I) :
    ∀ n : N, walk child mem n (p ++ q)
      = (walk child mem n p).bind fun m => walk child mem m q := by
  induction p with
  | nil => intro n; rfl
  | cons i p ih =>
      intro n
      rw [List.cons_append, walk_cons, walk_cons]
      cases child (mem n i) with
      | none => rfl
      | some m => exact ih m

theorem walk_snoc (n : N) (p : List I) (i : I) :
    walk child mem n (p ++ [i])
      = (walk child mem n p).bind fun m => child (mem m i) := by
  rw [walk_append]
  cases walk child mem n p with
  | none => rfl
  | some m =>
      show walk child mem m [i] = child (mem m i)
      rw [walk_cons]
      cases child (mem m i) with
      | none => rfl
      | some k => rfl

/-- Every prefix of a walk that arrives arrives too. -/
theorem walk_prefix {n m : N} {p q : List I}
    (h : walk child mem n (p ++ q) = some m) :
    ∃ k, walk child mem n p = some k := by
  rw [walk_append] at h
  cases hp : walk child mem n p with
  | none => rw [hp] at h; cases h
  | some k => exact ⟨k, rfl⟩

/-- A family of paths closed under taking prefixes. -/
def PrefixClosed (A : Set (List I)) : Prop :=
  ∀ p i, p ++ [i] ∈ A → p ∈ A

/-- No two paths of `A` arrive at the same node. -/
def Unshared (child : E → Option N) (mem : N → I → E) (root : N)
    (A : Set (List I)) : Prop :=
  ∀ p q n, p ∈ A → q ∈ A → walk child mem root p = some n →
    walk child mem root q = some n → p = q

/-- The nodes that the paths of `A` arrive at. -/
def reached (child : E → Option N) (mem : N → I → E) (root : N)
    (A : Set (List I)) : Set N :=
  {n | ∃ p ∈ A, walk child mem root p = some n}

variable [DecidableEq N]

/-- Overwrite every entry of one node. -/
def clear (mem : N → I → E) (n : N) (z : E) : N → I → E :=
  Function.update mem n fun _ => z

@[simp] theorem clear_same (n : N) (i : I) (z : E) : clear mem n z n i = z := by
  simp [clear]

theorem clear_of_ne {n m : N} (i : I) (z : E) (h : m ≠ n) :
    clear mem n z m i = mem m i := by
  simp [clear, h]

variable [DecidableEq I]

/-- Overwrite one entry of one node. -/
def setEntry (mem : N → I → E) (n : N) (i : I) (e : E) : N → I → E :=
  Function.update mem n (Function.update (mem n) i e)

@[simp] theorem setEntry_same (n : N) (i : I) (e : E) :
    setEntry mem n i e n i = e := by
  simp [setEntry]

theorem setEntry_of_ne {n m : N} {i j : I} (e : E) (h : m ≠ n ∨ j ≠ i) :
    setEntry mem n i e m j = mem m j := by
  rcases h with hm | hj
  · simp [setEntry, hm]
  · by_cases hm : m = n
    · subst hm
      simp [setEntry, hj]
    · simp [setEntry, hm]

variable {A : Set (List I)}

/-- **FRAME.**  Writing an entry below which no path of `A` continues changes
    no walk along `A`.  Induction on the path from its far end: the written
    entry could only be read at the node's own path, and from there `A` does
    not go on through `i`. -/
theorem walk_setEntry_leaf (hA : PrefixClosed A)
    (hun : Unshared child mem root A) {p : List I} {n : N} {i : I} (e : E)
    (hp : p ∈ A) (hn : walk child mem root p = some n) (hi : p ++ [i] ∉ A)
    {q : List I} (hq : q ∈ A) :
    walk child (setEntry mem n i e) root q = walk child mem root q := by
  induction q using List.reverseRecOn with
  | nil => rfl
  | append_singleton q j ih =>
      have hq' : q ∈ A := hA q j hq
      rw [walk_snoc, walk_snoc, ih hq']
      cases hm : walk child mem root q with
      | none => rfl
      | some m =>
          have hne : m ≠ n ∨ j ≠ i := by
            by_cases hmn : m = n
            · right
              intro hji
              subst hmn hji
              rw [← hun p q m hp hq' hn hm] at hq
              exact hi hq
            · exact Or.inl hmn
          show child (setEntry mem n i e m j) = child (mem m j)
          rw [setEntry_of_ne e hne]

theorem unshared_setEntry_leaf (hA : PrefixClosed A)
    (hun : Unshared child mem root A) {p : List I} {n : N} {i : I} (e : E)
    (hp : p ∈ A) (hn : walk child mem root p = some n) (hi : p ++ [i] ∉ A) :
    Unshared child (setEntry mem n i e) root A := by
  intro q₁ q₂ m h₁ h₂ hw₁ hw₂
  rw [walk_setEntry_leaf hA hun e hp hn hi h₁] at hw₁
  rw [walk_setEntry_leaf hA hun e hp hn hi h₂] at hw₂
  exact hun q₁ q₂ m h₁ h₂ hw₁ hw₂

/-- Link node `f` under entry `i` of node `n`, then clear `f`. -/
def link (mem : N → I → E) (n : N) (i : I) (e : E) (f : N) (z : E) :
    N → I → E :=
  clear (setEntry mem n i e) f z

/-- The side conditions of linking a fresh node `f` under entry `i` of the
    node at path `p`. -/
structure Linkable (child : E → Option N) (mem : N → I → E) (root : N)
    (A : Set (List I)) (p : List I) (n : N) (i : I) (e : E) (f : N) (z : E) :
    Prop where
  path : p ++ [i] ∈ A
  node : walk child mem root p = some n
  empty : child (mem n i) = none
  entry : child e = some f
  zero : child z = none
  fresh : f ∉ reached child mem root A

/-- **LINKING ADDS ONE PATH.**  After linking, the walk along `p ++ [i]`
    arrives at the new node and every other walk along `A` is as before. -/
theorem walk_link (hA : PrefixClosed A) (hun : Unshared child mem root A)
    {p : List I} {n : N} {i : I} {e : E} {f : N} {z : E}
    (hl : Linkable child mem root A p n i e f z) {q : List I} (hq : q ∈ A) :
    walk child (link mem n i e f z) root q
      = if q = p ++ [i] then some f else walk child mem root q := by
  have hp : p ∈ A := hA p i hl.path
  have hnf : n ≠ f := fun h => hl.fresh ⟨p, hp, h ▸ hl.node⟩
  induction q using List.reverseRecOn with
  | nil =>
      rw [if_neg (by simp)]
      rfl
  | append_singleton q j ih =>
      have hq' : q ∈ A := hA q j hq
      rw [walk_snoc, walk_snoc, ih hq']
      by_cases hqp : q = p ++ [i]
      · -- one step past the new node: its entries are all cleared
        rw [if_pos hqp, if_neg (by rw [hqp]; simp), hqp, walk_snoc, hl.node]
        show child (link mem n i e f z f j)
          = (child (mem n i)).bind fun m => child (mem m j)
        rw [hl.empty, link, clear_same, hl.zero]
        rfl
      · rw [if_neg hqp]
        cases hm : walk child mem root q with
        | none =>
            have hne : q ++ [j] ≠ p ++ [i] := by
              intro h
              obtain ⟨rfl, -⟩ := List.append_inj' h rfl
              rw [hl.node] at hm
              cases hm
            rw [if_neg hne]
            rfl
        | some m =>
            have hmf : m ≠ f := fun h => hl.fresh ⟨q, hq', h ▸ hm⟩
            show child (link mem n i e f z m j)
              = if q ++ [j] = p ++ [i] then some f else child (mem m j)
            rw [link, clear_of_ne j z hmf]
            by_cases hji : q ++ [j] = p ++ [i]
            · obtain ⟨hqp', hj⟩ := List.append_inj' hji rfl
              have hj' : j = i := by simpa using hj
              subst hqp' hj'
              have hmn : m = n := Option.some.inj (hm.symm.trans hl.node)
              rw [if_pos hji, hmn, setEntry_same, hl.entry]
            · rw [if_neg hji]
              have hne : m ≠ n ∨ j ≠ i := by
                by_cases hmn : m = n
                · right
                  intro hj
                  subst hmn hj
                  exact hji (by rw [hun q p m hq' hp hm hl.node])
                · exact Or.inl hmn
              rw [setEntry_of_ne e hne]

/-- Linking keeps every walk that arrives. -/
theorem walk_link_mono (hA : PrefixClosed A) (hun : Unshared child mem root A)
    {p : List I} {n : N} {i : I} {e : E} {f : N} {z : E}
    (hl : Linkable child mem root A p n i e f z) {q : List I} (hq : q ∈ A) {m : N}
    (hm : walk child mem root q = some m) :
    walk child (link mem n i e f z) root q = some m := by
  rw [walk_link hA hun hl hq, if_neg, hm]
  rintro rfl
  rw [walk_snoc, hl.node] at hm
  rw [show ((some n).bind fun m => child (mem m i)) = child (mem n i) from rfl,
    hl.empty] at hm
  cases hm

theorem unshared_link (hA : PrefixClosed A) (hun : Unshared child mem root A)
    {p : List I} {n : N} {i : I} {e : E} {f : N} {z : E}
    (hl : Linkable child mem root A p n i e f z) :
    Unshared child (link mem n i e f z) root A := by
  intro q₁ q₂ m h₁ h₂ hw₁ hw₂
  rw [walk_link hA hun hl h₁] at hw₁
  rw [walk_link hA hun hl h₂] at hw₂
  by_cases e₁ : q₁ = p ++ [i]
  · by_cases e₂ : q₂ = p ++ [i]
    · rw [e₁, e₂]
    · rw [if_pos e₁] at hw₁
      rw [if_neg e₂] at hw₂
      cases hw₁
      exact absurd ⟨q₂, h₂, hw₂⟩ hl.fresh
  · rw [if_neg e₁] at hw₁
    by_cases e₂ : q₂ = p ++ [i]
    · rw [if_pos e₂] at hw₂
      cases hw₂
      exact absurd ⟨q₁, h₁, hw₁⟩ hl.fresh
    · rw [if_neg e₂] at hw₂
      exact hun q₁ q₂ m h₁ h₂ hw₁ hw₂

/-- Linking adds exactly the new node to the nodes reached. -/
theorem reached_link (hA : PrefixClosed A) (hun : Unshared child mem root A)
    {p : List I} {n : N} {i : I} {e : E} {f : N} {z : E}
    (hl : Linkable child mem root A p n i e f z) :
    reached child (link mem n i e f z) root A
      = insert f (reached child mem root A) := by
  ext m
  constructor
  · rintro ⟨q, hq, hw⟩
    rw [walk_link hA hun hl hq] at hw
    by_cases hqe : q = p ++ [i]
    · rw [if_pos hqe] at hw
      exact Or.inl (Option.some.inj hw).symm
    · rw [if_neg hqe] at hw
      exact Or.inr ⟨q, hq, hw⟩
  · rintro (rfl | ⟨q, hq, hw⟩)
    · exact ⟨p ++ [i], hl.path, by rw [walk_link hA hun hl hl.path, if_pos rfl]⟩
    · exact ⟨q, hq, walk_link_mono hA hun hl hq hw⟩

theorem reached_setEntry_leaf (hA : PrefixClosed A)
    (hun : Unshared child mem root A) {p : List I} {n : N} {i : I} (e : E)
    (hp : p ∈ A) (hn : walk child mem root p = some n) (hi : p ++ [i] ∉ A) :
    reached child (setEntry mem n i e) root A = reached child mem root A := by
  ext m
  constructor
  · rintro ⟨q, hq, hw⟩
    exact ⟨q, hq, by rwa [walk_setEntry_leaf hA hun e hp hn hi hq] at hw⟩
  · rintro ⟨q, hq, hw⟩
    exact ⟨q, hq, by rwa [walk_setEntry_leaf hA hun e hp hn hi hq]⟩

end RadixTree
