import Mathlib.Data.Nat.Digits.Defs

/-! # Hexadecimal numbers in lines of text

    Numbers are printed in base 16 with capital letters and zeros in front up to
    a width, and lines are put together from such numbers, words and literal
    text, or begin with a tag out of a table.  For each way of printing there is
    one of reading, and a lemma that the one undoes the other. -/

namespace TextFormat

/-! ## Numbers -/

/-- The digit for a number below 16. -/
def hexChar (d : Nat) : Char := if d < 10 then Char.ofNat (48 + d) else Char.ofNat (55 + d)

/-- The number for a digit. -/
def hexVal (c : Char) : Option Nat :=
  if 48 ≤ c.toNat ∧ c.toNat < 58 then some (c.toNat - 48)
  else if 65 ≤ c.toNat ∧ c.toNat < 71 then some (c.toNat - 55)
  else none

/-- The number in base 16, at least `width` characters wide. -/
def upperHex (width n : Nat) : List Char :=
  ((Nat.digits 16 n).reverse.map hexChar).leftpad width '0'

/-- Read a number, the leading digit first. -/
def readHex (cs : List Char) : Option Nat :=
  cs.foldlM (fun n c => (hexVal c).map (16 * n + ·)) 0

theorem hexVal_hexChar {d : Nat} (h : d < 16) : hexVal (hexChar d) = some d := by
  have hall : ∀ d : Fin 16, hexVal (hexChar d) = some d.val := by decide
  exact hall ⟨d, h⟩

theorem foldlM_hexChar {ds : List Nat} (h : ∀ d ∈ ds, d < 16) (n : Nat) :
    (ds.map hexChar).foldlM (fun n c => (hexVal c).map (16 * n + ·)) n
      = some (ds.foldl (fun n d => 16 * n + d) n) := by
  induction ds generalizing n with
  | nil => rfl
  | cons d ds ih =>
      rw [List.forall_mem_cons] at h
      rw [List.map_cons, List.foldlM_cons, hexVal_hexChar h.1]
      exact ih h.2 _

/-- Zeros in front do not count. -/
theorem foldlM_zeros (k : Nat) (cs : List Char) :
    readHex (List.replicate k '0' ++ cs) = readHex cs := by
  induction k with
  | zero => rfl
  | succ k ih => exact ih

/-- **NUMBERS CAN BE READ BACK.** -/
theorem readHex_upperHex (width n : Nat) : readHex (upperHex width n) = some n := by
  have hlt : ∀ d ∈ (Nat.digits 16 n).reverse, d < 16 := by
    intro d hd
    exact Nat.digits_lt_base (by decide) (List.mem_reverse.mp hd)
  rw [upperHex, List.leftpad, foldlM_zeros, readHex, foldlM_hexChar hlt, List.foldl_reverse]
  have hdigits := Nat.ofDigits_digits 16 n
  rw [Nat.ofDigits_eq_foldr] at hdigits
  rw [Option.some.injEq]
  simpa only [Nat.add_comm, Nat.cast_id] using hdigits

/-- A number is made of digits. -/
theorem hexVal_of_mem {width n : Nat} {c : Char} (h : c ∈ upperHex width n) :
    (hexVal c).isSome := by
  rcases List.mem_append.mp h with hc | hc
  · rw [List.eq_of_mem_replicate hc]
    decide
  · obtain ⟨d, hd, rfl⟩ := List.mem_map.mp hc
    rw [hexVal_hexChar (Nat.digits_lt_base (by decide) (List.mem_reverse.mp hd))]
    rfl

/-! ## Pieces of a line -/

/-- Take literal text off the front. -/
def literal (ps cs : List Char) : Option (List Char) :=
  if ps.isPrefixOf cs then some (cs.drop ps.length) else none

/-- Take off what stands before the first `c`, and the `c`. -/
def field (c : Char) (cs : List Char) : Option (List Char × List Char) :=
  if c ∈ cs then some (cs.takeWhile (· ≠ c), (cs.dropWhile (· ≠ c)).tail) else none

theorem literal_append (ps cs : List Char) : literal ps (ps ++ cs) = some cs := by
  rw [literal, if_pos (List.isPrefixOf_iff_prefix.mpr (List.prefix_append ps cs)),
    List.drop_left]

theorem field_append {c : Char} {xs : List Char} (h : c ∉ xs) (ys : List Char) :
    field c (xs ++ c :: ys) = some (xs, ys) := by
  have hne : ∀ x ∈ xs, decide (x ≠ c) = true := by
    intro x hx
    exact decide_eq_true fun heq => h (heq ▸ hx)
  rw [field, if_pos (List.mem_append_right xs List.mem_cons_self),
    List.takeWhile_append_of_pos hne, List.dropWhile_append_of_pos hne]
  simp

/-- A number and the character behind it. -/
theorem field_upperHex {c : Char} (h : hexVal c = none) (width n : Nat) (ys : List Char) :
    field c (upperHex width n ++ c :: ys) = some (upperHex width n, ys) := by
  refine field_append (fun hc => ?_) ys
  have hsome := hexVal_of_mem hc
  rw [h] at hsome
  cases hsome

/-! ## Items one behind the other -/

/-- Read items as long as there are any, at most `n`. -/
def readMany {β : Type} (item : List Char → Option (β × List Char)) :
    Nat → List Char → List β × List Char
  | 0, cs => ([], cs)
  | n + 1, cs =>
      match item cs with
      | none => ([], cs)
      | some (b, cs') =>
          let r := readMany item n cs'
          (b :: r.1, r.2)

/-- **ITEMS CAN BE READ BACK,** if what follows is none. -/
theorem readMany_flatMap {β : Type} {item : List Char → Option (β × List Char)}
    {print : β → List Char} (h : ∀ b cs, item (print b ++ cs) = some (b, cs))
    {rest : List Char} (hrest : item rest = none) (bs : List β) :
    ∀ n, bs.length ≤ n → readMany item n (bs.flatMap print ++ rest) = (bs, rest) := by
  induction bs with
  | nil =>
      intro n _
      cases n with
      | zero => rfl
      | succ n =>
          show readMany item (n + 1) rest = _
          rw [readMany, hrest]
  | cons b bs ih =>
      intro n hn
      cases n with
      | zero => cases hn
      | succ n =>
          rw [List.flatMap_cons, List.append_assoc, readMany, h]
          dsimp only
          rw [ih n (Nat.le_of_succ_le_succ hn)]

/-! ## Tags -/

/-- The first entry whose tag stands at the front. -/
def readTag {β : Type} (tags : List (β × List Char)) (cs : List Char) : Option β :=
  (tags.find? fun e => e.2.isPrefixOf cs).map Prod.fst

/-- No tag is the beginning of another. -/
def PrefixFree {β : Type} (tags : List (β × List Char)) : Prop :=
  tags.Pairwise fun p q => ¬ p.2 <+: q.2 ∧ ¬ q.2 <+: p.2

/-- **TAGS CAN BE READ BACK,** whatever follows. -/
theorem readTag_append {β : Type} {tags : List (β × List Char)} {b : β} {tag : List Char}
    (hfree : PrefixFree tags) (h : (b, tag) ∈ tags) (cs : List Char) :
    readTag tags (tag ++ cs) = some b := by
  induction tags with
  | nil => cases h
  | cons p tags ih =>
      obtain ⟨hfirst, hfree⟩ := List.pairwise_cons.mp hfree
      rw [readTag, List.find?_cons]
      rcases List.mem_cons.mp h with rfl | h
      · rw [List.isPrefixOf_iff_prefix.mpr (List.prefix_append tag cs)]
        rfl
      · have hnot : p.2.isPrefixOf (tag ++ cs) = false := by
          rw [Bool.eq_false_iff, ne_eq, List.isPrefixOf_iff_prefix]
          intro hp
          -- two beginnings of one text: one is the beginning of the other
          rcases List.prefix_or_prefix_of_prefix hp (List.prefix_append tag cs) with hpq | hqp
          · exact (hfirst _ h).1 hpq
          · exact (hfirst _ h).2 hqp
        rw [hnot]
        exact ih hfree h

end TextFormat
