import Mathlib

set_option autoImplicit false

/-! # Numbers in text

Scripts compute with text. `numify` is the number a text stands for in an arithmetic
expression: its longest prefix that reads as a decimal number, `0` when there is none.
`decimal`, `intText` and `fixed2` print numbers. Arithmetic is exact, over `ℚ`.
-/

namespace Perl

/-- The value of a sequence of decimal digits. -/
def digitsValue (ds : List Char) : Nat := ds.foldl (fun n c => 10 * n + (c.toNat - 48)) 0

def isSpace (c : Char) : Bool := c = ' ' || c = '\t' || c = '\n' || c = '\r' || c = '\x0c'

/-- A sign at the front of a text: whether it is a minus, and the rest. -/
def takeSign : List Char → Bool × List Char
  | '-' :: s => (true, s)
  | '+' :: s => (false, s)
  | s => (false, s)

/-- The digits after a decimal point at the front of a text, and the rest. -/
def takeFraction : List Char → List Char × List Char
  | '.' :: s => (s.takeWhile Char.isDigit, s.dropWhile Char.isDigit)
  | s => ([], s)

/-- The exponent at the front of a text, `0` when there is none. -/
def exponent (s : List Char) : Int :=
  match s with
  | c :: s =>
      if c = 'e' ∨ c = 'E' then
        let (neg, s) := takeSign s
        let e : Int := digitsValue (s.takeWhile Char.isDigit)
        if neg then -e else e
      else 0
  | [] => 0

/-- The number a text stands for: white space, a sign, digits with an optional fraction and
an optional exponent, then anything. A text without a digit in that place is `0`. -/
def numify (s : List Char) : ℚ :=
  let (neg, s) := takeSign (s.dropWhile isSpace)
  let whole := s.takeWhile Char.isDigit
  let (frac, rest) := takeFraction (s.dropWhile Char.isDigit)
  if whole = [] ∧ frac = [] then 0
  else
    let m : ℚ := (digitsValue (whole ++ frac) : ℚ) / 10 ^ frac.length * 10 ^ exponent rest
    if neg then -m else m

/-- A natural number in decimal. -/
def decimal (n : Nat) : List Char :=
  if n = 0 then ['0'] else (Nat.digits 10 n).reverse.map Nat.digitChar

/-- An integer in decimal. -/
def intText (z : Int) : List Char :=
  if z < 0 then '-' :: decimal z.natAbs else decimal z.natAbs

/-- The format `%0wd`: at least `w` characters, filled up with zeros after the sign. -/
def zeros (w : Nat) (z : Int) : List Char :=
  let ds := decimal z.natAbs
  if z < 0 then '-' :: (List.replicate (w - 1 - ds.length) '0' ++ ds)
  else List.replicate (w - ds.length) '0' ++ ds

/-- The integer part, towards zero. -/
def truncate (q : ℚ) : Int := if 0 ≤ q then ⌊q⌋ else ⌈q⌉

/-- The nearest integer; halves go to the even one. -/
def roundEven (q : ℚ) : Int :=
  let n := ⌊q⌋
  let d := q - n
  if d < 1 / 2 then n
  else if 1 / 2 < d then n + 1
  else if n % 2 = 0 then n else n + 1

/-- The format `%4.2f`. -/
def fixed2 (q : ℚ) : List Char :=
  let n := (roundEven (|q| * 100)).natAbs
  let text := decimal (n / 100) ++ '.' :: (decimal (n / 10 % 10) ++ decimal (n % 10))
  if q < 0 then '-' :: text else text

/-! ## Decimal numbers read back -/

/-- Digits stand for their value, whatever follows that does not go on with a number. -/
theorem numify_digits_append {s tail : List Char} (hs : s ≠ []) (hd : ∀ c ∈ s, c.isDigit = true)
    (ht : ∀ c ∈ tail, isSpace c = true) : numify (s ++ tail) = digitsValue s := by
  have hnum : ∀ c : Char, isSpace c = true → c.isDigit = false ∧ c ≠ '.' ∧ c ≠ 'e' ∧ c ≠ 'E' := by
    intro c hc
    simp only [isSpace, Bool.or_eq_true, decide_eq_true_eq] at hc
    rcases hc with (((rfl | rfl) | rfl) | rfl) | rfl <;> decide
  obtain ⟨c, t, rfl⟩ := List.exists_cons_of_ne_nil hs
  have hc : c.isDigit = true := hd c (by simp)
  have hspace : isSpace c = false := by
    by_contra h
    rw [Bool.not_eq_false] at h
    rw [(hnum c h).1] at hc
    cases hc
  have hsign : takeSign (c :: (t ++ tail)) = (false, c :: (t ++ tail)) := by
    unfold takeSign
    split
    · rename_i heq
      rw [(List.cons.inj heq).1] at hc
      simp [Char.isDigit] at hc
    · rename_i heq
      rw [(List.cons.inj heq).1] at hc
      simp [Char.isDigit] at hc
    · rfl
  have hskip : (c :: (t ++ tail)).dropWhile isSpace = c :: (t ++ tail) :=
    List.dropWhile_cons_of_neg (by simp [hspace])
  have hrest : tail.takeWhile Char.isDigit = [] ∧ tail.dropWhile Char.isDigit = tail
      ∧ takeFraction tail = ([], tail) ∧ exponent tail = 0 := by
    cases tail with
    | nil => exact ⟨rfl, rfl, rfl, rfl⟩
    | cons e u =>
        obtain ⟨h1, h2, h3, h4⟩ := hnum e (ht e (by simp))
        refine ⟨List.takeWhile_cons_of_neg (by simp [h1]),
          List.dropWhile_cons_of_neg (by simp [h1]), ?_, by simp [exponent, h3, h4]⟩
        unfold takeFraction
        split
        · rename_i heq
          exact absurd (List.cons.inj heq).1 h2
        · rfl
  obtain ⟨htake, hdrop, hfrac, hexp⟩ := hrest
  have htake' : (c :: (t ++ tail)).takeWhile Char.isDigit = c :: t := by
    rw [← List.cons_append, List.takeWhile_append_of_pos hd, htake, List.append_nil]
  have hdrop' : (c :: (t ++ tail)).dropWhile Char.isDigit = tail := by
    rw [← List.cons_append, List.dropWhile_append_of_pos hd, hdrop]
  simp only [numify, List.cons_append, hskip, hsign, htake', hdrop', hfrac, hexp]
  simp

/-- A text of digits stands for the value of its digits. -/
theorem numify_of_digits {s : List Char} (hs : s ≠ []) (hd : ∀ c ∈ s, c.isDigit = true) :
    numify s = digitsValue s := by
  have h := @numify_digits_append s [] hs hd (by simp)
  rwa [List.append_nil] at h

theorem digitsValue_reverse (ds : List Nat) (h : ∀ d ∈ ds, d < 10) :
    digitsValue (ds.reverse.map Nat.digitChar) = Nat.ofDigits 10 ds := by
  induction ds with
  | nil => rfl
  | cons d ds ih =>
      have hd : (Nat.digitChar d).toNat = 48 + d := Nat.toNat_digitChar_of_lt_ten (h d (by simp))
      have ihd := ih (fun e he => h e (by simp [he]))
      rw [List.reverse_cons, List.map_append, digitsValue, List.foldl_append]
      rw [digitsValue] at ihd
      rw [ihd, List.map_singleton, List.foldl_cons, List.foldl_nil, hd, Nat.ofDigits_cons]
      omega

theorem decimal_ne_nil (n : Nat) : decimal n ≠ [] := by
  unfold decimal
  split
  · simp
  · rename_i hn
    simp [Nat.digits_ne_nil_iff_ne_zero.mpr hn]

theorem isDigit_of_mem_decimal {n : Nat} {c : Char} (h : c ∈ decimal n) : c.isDigit = true := by
  have hdigit : ∀ d, d < 10 → (Nat.digitChar d).isDigit = true := by decide
  unfold decimal at h
  split at h
  · simp only [List.mem_singleton] at h
    subst h; decide
  · simp only [List.map_reverse, List.mem_reverse, List.mem_map] at h
    obtain ⟨d, hd, rfl⟩ := h
    exact hdigit d (Nat.digits_lt_base (by decide) hd)

theorem not_mem_decimal {x : Char} (hx : x.isDigit = false) (n : Nat) : x ∉ decimal n := by
  intro h
  rw [isDigit_of_mem_decimal h] at hx
  cases hx

theorem lt_length_decimal (n : Nat) : n < (decimal (10 ^ n)).length := by
  have hpos : (10 : Nat) ^ n ≠ 0 := by positivity
  have hlt := Nat.lt_base_pow_length_digits (b := 10) (m := 10 ^ n) (by omega)
  rw [decimal, if_neg hpos, List.length_map, List.length_reverse]
  exact (Nat.pow_lt_pow_iff_right (by omega)).mp hlt

/-- **A number printed in decimal reads back as itself.** -/
theorem numify_decimal (n : Nat) : numify (decimal n) = n := by
  rw [numify_of_digits (decimal_ne_nil n) (fun c hc => isDigit_of_mem_decimal hc)]
  unfold decimal
  split
  · rename_i hn
    subst hn; rfl
  · rw [digitsValue_reverse _ (fun d hd => Nat.digits_lt_base (by decide) hd), Nat.ofDigits_digits]

/-- White space after a number does not change it. -/
theorem numify_decimal_append (n : Nat) {tail : List Char} (ht : ∀ c ∈ tail, isSpace c = true) :
    numify (decimal n ++ tail) = n := by
  have hd : ∀ c ∈ decimal n, c.isDigit = true := fun c hc => isDigit_of_mem_decimal hc
  rw [numify_digits_append (decimal_ne_nil n) hd ht, ← numify_of_digits (decimal_ne_nil n) hd,
    numify_decimal]

theorem decimal_injective {m n : Nat} (h : decimal m = decimal n) : m = n := by
  have hn := congrArg numify h
  rw [numify_decimal, numify_decimal] at hn
  exact_mod_cast hn

example : numify "".toList = 0 := by decide +kernel
example : numify " 42 kB".toList = 42 := by decide +kernel
example : numify "-1.5e1".toList = -15 := by decide +kernel

/-- A printed integer is made of digits and at most a minus sign. -/
theorem mem_intText {z : Int} {c : Char} (h : c ∈ intText z) : c = '-' ∨ c.isDigit = true := by
  unfold intText at h
  split at h
  · rcases List.mem_cons.mp h with rfl | h
    · exact Or.inl rfl
    · exact Or.inr (isDigit_of_mem_decimal h)
  · exact Or.inr (isDigit_of_mem_decimal h)

/-- The zeros that fill a number up are digits too. -/
theorem mem_zeros {w : Nat} {z : Int} {c : Char} (h : c ∈ zeros w z) :
    c = '-' ∨ c.isDigit = true := by
  have hds : ∀ n, c ∈ List.replicate n '0' ++ decimal z.natAbs → c.isDigit = true := by
    intro n hc
    rcases List.mem_append.mp hc with hc | hc
    · rw [(List.mem_replicate.mp hc).2]
      decide
    · exact isDigit_of_mem_decimal hc
  simp only [zeros] at h
  split at h
  · exact (List.mem_cons.mp h).imp_right (hds _)
  · exact Or.inr (hds _ h)

/-- A percentage is printed with digits, a point and at most a minus sign. -/
theorem mem_fixed2 {q : ℚ} {c : Char} (h : c ∈ fixed2 q) :
    c = '-' ∨ c = '.' ∨ c.isDigit = true := by
  have htext : ∀ n : Nat, c ∈ decimal (n / 100) ++ '.' :: (decimal (n / 10 % 10) ++ decimal (n % 10)) →
      c = '.' ∨ c.isDigit = true := by
    intro n hc
    simp only [List.mem_append, List.mem_cons] at hc
    rcases hc with hc | hc | hc | hc
    · exact Or.inr (isDigit_of_mem_decimal hc)
    · exact Or.inl hc
    · exact Or.inr (isDigit_of_mem_decimal hc)
    · exact Or.inr (isDigit_of_mem_decimal hc)
  simp only [fixed2] at h
  split at h
  · rcases List.mem_cons.mp h with rfl | h
    · exact Or.inl rfl
    · exact Or.inr (htext _ h)
  · exact Or.inr (htext _ h)

/-- A minus sign in front of digits. -/
theorem numify_neg {s : List Char} (hs : s ≠ []) (hd : ∀ c ∈ s, c.isDigit = true) :
    numify ('-' :: s) = -numify s := by
  have htake : s.takeWhile Char.isDigit = s := List.takeWhile_eq_self_iff.mpr hd
  have hdrop : s.dropWhile Char.isDigit = [] := List.dropWhile_eq_nil_iff.mpr hd
  have hskip : ('-' :: s).dropWhile isSpace = '-' :: s := List.dropWhile_cons_of_neg (by decide)
  rw [numify_of_digits hs hd]
  simp only [numify, hskip, takeSign, htake, hdrop, takeFraction, exponent]
  simp [hs]

theorem numify_intText (z : Int) : numify (intText z) = z := by
  unfold intText
  split
  · rename_i hz
    rw [numify_neg (decimal_ne_nil _) fun c hc => isDigit_of_mem_decimal hc, numify_decimal,
      Nat.cast_natAbs, abs_of_neg hz]
    simp
  · rename_i hz
    rw [numify_decimal, Nat.cast_natAbs, abs_of_nonneg (not_lt.mp hz)]

theorem intText_injective {a b : Int} (h : intText a = intText b) : a = b := by
  have hn := congrArg numify h
  rw [numify_intText, numify_intText] at hn
  exact_mod_cast hn

end Perl
