import Mathlib

set_option autoImplicit false

/-! # Numbers as octets

`octets k n` is the number `n` in `k` octets, the most significant one first, and `octetsValue`
reads such a string back. `compressed` writes a number in as few groups of seven bits as
possible, every octet but the last one with its high bit set; `unpackCompressed` reads a sequence
of such numbers. `signedValue` reads octets in two's complement, `shorten` drops the octets in
front that do not change it.
-/

namespace Perl

abbrev Octets := List UInt8

/-- The number that octets stand for. -/
def octetsValue (bs : Octets) : Nat := bs.foldl (fun n b => 256 * n + b.toNat) 0

/-- `n` in `k` octets; what does not fit is lost. -/
def octets : Nat → Nat → Octets
  | 0, _ => []
  | k + 1, n => UInt8.ofNat (n / 256 ^ k) :: octets k n

@[simp] theorem octetsValue_nil : octetsValue [] = 0 := rfl

theorem foldl_octets (n : Nat) (bs : Octets) :
    bs.foldl (fun n b => 256 * n + b.toNat) n = n * 256 ^ bs.length + octetsValue bs := by
  induction bs generalizing n with
  | nil => simp [octetsValue]
  | cons b bs ih =>
      rw [octetsValue, List.foldl_cons, List.foldl_cons, ih, ih (256 * 0 + b.toNat),
        List.length_cons, pow_succ]
      ring

theorem octetsValue_append (as bs : Octets) :
    octetsValue (as ++ bs) = octetsValue as * 256 ^ bs.length + octetsValue bs := by
  rw [octetsValue, List.foldl_append, foldl_octets]
  rfl

theorem octetsValue_cons (b : UInt8) (bs : Octets) :
    octetsValue (b :: bs) = b.toNat * 256 ^ bs.length + octetsValue bs := by
  rw [← List.singleton_append, octetsValue_append]
  simp [octetsValue]

theorem octetsValue_lt (bs : Octets) : octetsValue bs < 256 ^ bs.length := by
  induction bs with
  | nil => simp
  | cons b bs ih =>
      have hb : b.toNat < 256 := b.toNat_lt
      rw [octetsValue_cons, List.length_cons, pow_succ]
      calc b.toNat * 256 ^ bs.length + octetsValue bs
          < b.toNat * 256 ^ bs.length + 256 ^ bs.length := by omega
        _ = (b.toNat + 1) * 256 ^ bs.length := by ring
        _ ≤ 256 * 256 ^ bs.length := Nat.mul_le_mul_right _ hb
        _ = 256 ^ bs.length * 256 := by ring

@[simp] theorem length_octets (k n : Nat) : (octets k n).length = k := by
  induction k with
  | zero => rfl
  | succ k ih => rw [octets, List.length_cons, ih]

theorem octetsValue_octets (k n : Nat) : octetsValue (octets k n) = n % 256 ^ k := by
  induction k with
  | zero => simp [octets, Nat.mod_one]
  | succ k ih =>
      have hsplit : n % (256 ^ k * 256) = n % 256 ^ k + 256 ^ k * (n / 256 ^ k % 256) := Nat.mod_mul
      have hhead : (UInt8.ofNat (n / 256 ^ k)).toNat = n / 256 ^ k % 256 := UInt8.toNat_ofNat'
      rw [octets, octetsValue_cons, ih, length_octets, hhead, pow_succ, hsplit]
      ring

/-- Octets of one length are determined by their number. -/
theorem octetsValue_injective {as bs : Octets} (hlen : as.length = bs.length)
    (h : octetsValue as = octetsValue bs) : as = bs := by
  induction as generalizing bs with
  | nil => exact (List.eq_nil_of_length_eq_zero hlen.symm).symm
  | cons a as ih =>
      cases bs with
      | nil => cases hlen
      | cons b bs =>
          have hlen' : as.length = bs.length := Nat.succ.inj hlen
          rw [octetsValue_cons, octetsValue_cons, hlen'] at h
          have ha := octetsValue_lt as
          have hb := octetsValue_lt bs
          rw [hlen'] at ha
          have hpos : 0 < 256 ^ bs.length := by positivity
          have hhead : a.toNat = b.toNat := by
            have hdiv := congrArg (· / 256 ^ bs.length) h
            simpa [Nat.add_div_of_dvd_right, Nat.mul_div_cancel _ hpos, Nat.div_eq_of_lt ha,
              Nat.div_eq_of_lt hb] using hdiv
          have htail : octetsValue as = octetsValue bs := by
            rw [hhead] at h
            omega
          rw [UInt8.toNat_inj.mp hhead, ih hlen' htail]

theorem octets_injective {k m n : Nat} (hm : m < 256 ^ k) (hn : n < 256 ^ k)
    (h : octets k m = octets k n) : m = n := by
  have hval := congrArg octetsValue h
  rwa [octetsValue_octets, octetsValue_octets, Nat.mod_eq_of_lt hm, Nat.mod_eq_of_lt hn] at hval

/-! ## Lists of numbers of one width -/

/-- **Packed lists compare as the lists**: one is a prefix of the other exactly when its numbers
are. -/
theorem flatMap_octets_prefix {k : Nat} (hk : 0 < k) {ms ns : List Nat}
    (hms : ∀ m ∈ ms, m < 256 ^ k) (hns : ∀ n ∈ ns, n < 256 ^ k) :
    ms.flatMap (octets k) <+: ns.flatMap (octets k) ↔ ms <+: ns := by
  induction ms generalizing ns with
  | nil => simp
  | cons m ms ih =>
      cases ns with
      | nil =>
          have hne : octets k m ≠ [] := List.ne_nil_of_length_pos (by rwa [length_octets])
          simp [hne]
      | cons n ns =>
          have hlen : (octets k m).length = (octets k n).length := by simp
          rw [List.flatMap_cons, List.flatMap_cons, List.cons_prefix_cons]
          constructor
          · rintro ⟨t, ht⟩
            rw [List.append_assoc] at ht
            obtain ⟨hhead, htail⟩ := List.append_inj ht hlen
            exact ⟨octets_injective (hms m (by simp)) (hns n (by simp)) hhead,
              (ih (fun x hx => hms x (by simp [hx])) fun x hx => hns x (by simp [hx])).mp
                ⟨t, htail⟩⟩
          · rintro ⟨rfl, h⟩
            exact (List.prefix_append_right_inj _).mpr
              ((ih (fun x hx => hms x (by simp [hx])) fun x hx => hns x (by simp [hx])).mpr h)

/-! ## Masks -/

/-- The mask of `w` bits from the bit `k` on. -/
theorem and_mask (x k w : Nat) : x &&& ((2 ^ w - 1) <<< k) = x / 2 ^ k % 2 ^ w * 2 ^ k := by
  rw [← Nat.shiftLeft_eq, ← Nat.shiftRight_eq_div_pow]
  refine Nat.eq_of_testBit_eq fun i => ?_
  rw [Nat.testBit_and, Nat.testBit_shiftLeft, Nat.testBit_shiftLeft, Nat.testBit_mod_two_pow,
    Nat.testBit_shiftRight, Nat.testBit_two_pow_sub_one]
  by_cases hi : k ≤ i
  · have hadd : k + (i - k) = i := by omega
    simp [hi, hadd, Bool.and_comm]
  · simp [hi]

/-- The high bit of an octet. -/
theorem and_0x80 (b : UInt8) : b.toNat &&& 0x80 = 0 ↔ b.toNat < 128 := by
  have hb : b.toNat < 256 := b.toNat_lt
  have hmask : b.toNat &&& 0x80 = b.toNat / 2 ^ 7 % 2 ^ 1 * 2 ^ 7 := and_mask b.toNat 7 1
  omega

/-! ## Two's complement -/

/-- The number that octets stand for in two's complement. -/
def signedValue : Octets → Int
  | [] => 0
  | b :: bs =>
      if b.toNat < 128 then octetsValue (b :: bs)
      else (octetsValue (b :: bs) : Int) - 256 ^ (bs.length + 1)

/-- An octet in front that only repeats the sign of the next one changes nothing. -/
theorem signedValue_zero_cons {b : UInt8} (hb : b.toNat < 128) (bs : Octets) :
    signedValue (0 :: b :: bs) = signedValue (b :: bs) := by
  simp [signedValue, hb, octetsValue_cons]

theorem signedValue_ones_cons {b : UInt8} (hb : 128 ≤ b.toNat) (bs : Octets) :
    signedValue (255 :: b :: bs) = signedValue (b :: bs) := by
  have h : ¬ b.toNat < 128 := by omega
  have h255 : (255 : UInt8).toNat = 255 := rfl
  simp only [signedValue, h, h255, octetsValue_cons 255, List.length_cons, pow_succ]
  push_cast
  ring

/-! ## Groups of seven bits -/

/-- The groups of seven bits of a number, each with the high bit set. -/
def groups (n : Nat) : Octets := (Nat.digits 128 n).reverse.map fun d => UInt8.ofNat (d + 128)

/-- The format `w` of `pack`. -/
def compressed (n : Nat) : Octets := groups (n / 128) ++ [UInt8.ofNat (n % 128)]

/-- The format `w` of `unpack`, for at most `len` numbers: `acc` are the groups of the number that
has been begun; it must end. -/
def unpackCompressed : Octets → Nat → Bool → Nat → Option (List Nat)
  | _, 0, _, _ => some []
  | [], _ + 1, begun, _ => if begun then none else some []
  | b :: bs, len + 1, _, acc =>
      if b.toNat < 128 then
        (unpackCompressed bs len false 0).map fun ns => (128 * acc + b.toNat) :: ns
      else unpackCompressed bs (len + 1) true (128 * acc + (b.toNat - 128))

theorem unpackCompressed_groups (len : Nat) (begun : Bool) (acc : Nat) {ds : List Nat}
    (hds : ∀ d ∈ ds, d < 128) (bs : Octets) :
    unpackCompressed (ds.map (fun d => UInt8.ofNat (d + 128)) ++ bs) (len + 1) begun acc
      = unpackCompressed bs (len + 1) (begun || !ds.isEmpty)
          (ds.foldl (fun n d => 128 * n + d) acc) := by
  induction ds generalizing begun acc with
  | nil => simp
  | cons d ds ih =>
      have hd : d < 128 := hds d (by simp)
      have hval : (UInt8.ofNat (d + 128)).toNat = d + 128 := by
        rw [UInt8.toNat_ofNat', Nat.mod_eq_of_lt (by omega)]
      rw [List.map_cons, List.cons_append, unpackCompressed, hval, if_neg (by omega),
        ih true _ fun e he => hds e (by simp [he])]
      simp

theorem foldl_digits (n : Nat) :
    (Nat.digits 128 n).reverse.foldl (fun n d => 128 * n + d) 0 = n := by
  rw [List.foldl_reverse]
  conv_rhs => rw [← Nat.ofDigits_digits 128 n]
  generalize Nat.digits 128 n = ds
  induction ds with
  | nil => rfl
  | cons d ds ih =>
      rw [List.foldr_cons, ih, Nat.ofDigits_cons]
      ring

/-- **A compressed number comes back.** -/
theorem unpackCompressed_compressed (len n : Nat) (bs : Octets) :
    unpackCompressed (compressed n ++ bs) (len + 1) false 0
      = (unpackCompressed bs len false 0).map fun ns => n :: ns := by
  have hlow : (UInt8.ofNat (n % 128)).toNat = n % 128 := by
    rw [UInt8.toNat_ofNat', Nat.mod_eq_of_lt (by omega)]
  have hdigits : ∀ d ∈ (Nat.digits 128 (n / 128)).reverse, d < 128 := fun d hd =>
    Nat.digits_lt_base (by decide) (List.mem_reverse.mp hd)
  rw [compressed, groups, List.append_assoc, unpackCompressed_groups _ _ _ hdigits, foldl_digits,
    List.singleton_append, unpackCompressed, hlow, if_pos (by omega), Nat.div_add_mod]

/-- The numbers of a list come back, when there are no more than `len`. -/
theorem unpackCompressed_flatMap {len : Nat} {ns : List Nat} (h : ns.length ≤ len) :
    unpackCompressed (ns.flatMap compressed) len false 0 = some ns := by
  induction ns generalizing len with
  | nil => cases len <;> simp [unpackCompressed]
  | cons n ns ih =>
      cases len with
      | zero => cases h
      | succ len =>
          rw [List.flatMap_cons, unpackCompressed_compressed, ih (Nat.succ_le_succ_iff.mp h)]
          rfl

theorem length_compressed_le {n k : Nat} (h : n < 128 ^ (k + 1)) :
    (compressed n).length ≤ k + 1 := by
  have hdiv : n / 128 < 128 ^ k := by
    rw [Nat.div_lt_iff_lt_mul (by decide), ← pow_succ]
    exact h
  have hlen : (Nat.digits 128 (n / 128)).length ≤ k := by
    by_cases h0 : n / 128 = 0
    · simp [h0]
    · rw [Nat.digits_length_le_iff (by decide)]
      exact hdiv
  simp only [compressed, groups, List.length_append, List.length_map, List.length_reverse,
    List.length_singleton]
  omega

theorem compressed_ne_nil (n : Nat) : compressed n ≠ [] := by
  simp [compressed]

end Perl
