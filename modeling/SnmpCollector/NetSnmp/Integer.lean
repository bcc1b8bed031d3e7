import SnmpCollector.NetSnmp.Message

set_option autoImplicit false

/-! # Integers of 32 bits (`Net::SNMP::Message`)

`_prepare_integer32` shifts a register to the left as long as its first nine bits are the same, and
takes the octets from its top; a zero is put in front of a positive number whose high bit is set.
What results is the number in two's complement (`prepareInteger32_eq`), and `_process_integer32`
reads it back (`reads_integer32`).
-/

namespace SnmpCollector.NetSnmp

open Perl

/-! ## Integers of 32 bits -/

theorem toNat_and (v : UInt64) (m : UInt64) : (v &&& m).toNat = v.toNat &&& m.toNat := rfl

/-- The octet that is taken from the register. -/
theorem toNat_top (v : UInt64) :
    (((v &&& 0xff000000) >>> 24).toUInt8).toNat = v.toNat / 2 ^ 24 % 256 := by
  have hmask : v.toNat &&& 0xff000000 = v.toNat / 2 ^ 24 % 2 ^ 8 * 2 ^ 24 := and_mask v.toNat 24 8
  rw [UInt64.toNat_toUInt8, UInt64.toNat_shiftRight, UInt64.toNat_and]
  simp only [UInt64.toNat_ofNat]
  norm_num
  rw [hmask, Nat.shiftRight_eq_div_pow]
  omega

theorem toNat_shl (v : UInt64) : (v <<< 8).toNat = v.toNat * 256 % 2 ^ 64 := by
  have h8 : (8 : UInt64).toNat = 8 := rfl
  rw [UInt64.toNat_shiftLeft, h8, Nat.shiftLeft_eq]

theorem and_0xff800000 (v : UInt64) :
    (v &&& 0xff800000).toNat = v.toNat / 2 ^ 23 % 2 ^ 9 * 2 ^ 23 := by
  rw [UInt64.toNat_and]
  exact and_mask v.toNat 23 9

/-- **Shortening keeps the value** in two's complement. -/
theorem signedValue_shorten (negative : Bool) (size : Nat) (v : UInt64) :
    signedValue (build (shorten negative size v).1 (shorten negative size v).2)
      = signedValue (build size v) := by
  fun_induction shorten negative size v with
  | case1 v => rfl
  | case2 v => rfl
  | case3 size v h ih =>
      have htop := toNat_top v
      have hnext := toNat_top (v <<< 8)
      have hmask := and_0xff800000 v
      rw [toNat_shl] at hnext
      -- the first two octets before the step, of which the second remains
      set a := ((v &&& 0xff000000) >>> 24).toUInt8
      set b := (((v <<< 8) &&& 0xff000000) >>> 24).toUInt8
      have hlong : build (size + 2) v = a :: b :: build size (v <<< 8 <<< 8) := rfl
      have hshort : build (size + 1) (v <<< 8) = b :: build size (v <<< 8 <<< 8) := rfl
      rw [ih, hlong, hshort]
      rcases h with h | ⟨h, -⟩
      · rw [h, UInt64.toNat_zero] at hmask
        have ha : a = 0 := by
          apply UInt8.toNat_inj.mp
          rw [htop, UInt8.toNat_zero]
          omega
        rw [ha, signedValue_zero_cons (by omega)]
      · have hm : (0xff800000 : UInt64).toNat = 0xff800000 := rfl
        rw [h, hm] at hmask
        have ha : a = 255 := by
          apply UInt8.toNat_inj.mp
          rw [htop]
          show _ = 255
          omega
        rw [ha, signedValue_ones_cons (by omega)]
  | case4 size v h => rfl

theorem shorten_size (negative : Bool) (size : Nat) (v : UInt64) (h : 1 ≤ size) :
    1 ≤ (shorten negative size v).1 ∧ (shorten negative size v).1 ≤ size := by
  fun_induction shorten negative size v with
  | case1 v => omega
  | case2 v => exact ⟨le_rfl, le_rfl⟩
  | case3 size v _ ih =>
      have h' := ih (by omega)
      omega
  | case4 size v _ => exact ⟨h, le_rfl⟩

@[simp] theorem length_build (size : Nat) (v : UInt64) : (build size v).length = size := by
  induction size generalizing v with
  | zero => rfl
  | succ size ih => rw [build, List.length_cons, ih]

/-- Four octets hold the low half of the register. -/
theorem octetsValue_build (v : UInt64) : octetsValue (build 4 v) = v.toNat % 2 ^ 32 := by
  simp only [build, octetsValue_cons, toNat_top, toNat_shl, List.length_cons, List.length_nil,
    octetsValue_nil]
  have hv : v.toNat < 2 ^ 64 := v.toNat_lt
  omega

/-- The head of the four octets has the high bit of the low half. -/
theorem signedValue_build (v : UInt64) : signedValue (build 4 v) = signed32 v := by
  have hval := octetsValue_build v
  have hhead : build 4 v = ((v &&& 0xff000000) >>> 24).toUInt8 :: build 3 (v <<< 8) := rfl
  have hv : v.toNat < 2 ^ 64 := v.toNat_lt
  rw [hhead] at hval ⊢
  simp only [signedValue, signed32, toNat_top, hval, length_build]
  by_cases h : v.toNat / 2 ^ 24 % 256 < 128
  · rw [if_pos h, if_pos (by omega)]
  · rw [if_neg h, if_neg (by omega)]
    norm_num

theorem toNat_register {value : Int} :
    (UInt64.ofNat (value % 2 ^ 64).toNat).toNat = (value % 2 ^ 64).toNat := by
  rw [UInt64.toNat_ofNat', Nat.mod_eq_of_lt (by omega)]

/-- The octets of an integer are in two's complement, and at most five: the fifth is a zero in
front. -/
structure IntegerOctets (bs : Octets) (value : Int) : Prop where
  length_pos : 1 ≤ bs.length
  length_le : bs.length ≤ 5
  head : bs.length = 5 → bs.headD 0 = 0
  value : signedValue bs = value

theorem prepareInteger32_eq (type : Asn1Type) {value : Int} (hlo : -2 ^ 31 ≤ value)
    (hhi : value < 2 ^ 32) : ∃ bs, IntegerOctets bs value ∧
      prepareInteger32 type value = .ok (type.code :: (lengthOctets bs.length ++ bs)) := by
  have hreg := @toNat_register value
  simp only [prepareInteger32]
  set v := UInt64.ofNat (value % 2 ^ 64).toNat
  have hbit : ((v &&& 0xff000000) &&& 0x80000000).toNat = v.toNat / 2 ^ 31 % 2 * 2 ^ 31 := by
    have hm : v.toNat &&& 0xff000000 = v.toNat / 2 ^ 24 % 2 ^ 8 * 2 ^ 24 := and_mask v.toNat 24 8
    have hm' : ∀ x, x &&& 0x80000000 = x / 2 ^ 31 % 2 ^ 1 * 2 ^ 31 := fun x => and_mask x 31 1
    rw [UInt64.toNat_and, UInt64.toNat_and]
    show (v.toNat &&& 0xff000000) &&& 0x80000000 = _
    rw [hm', hm]
    omega
  have hbit0 : (v &&& 0xff000000) &&& 0x80000000 ≠ 0 ↔ v.toNat / 2 ^ 31 % 2 = 1 := by
    rw [ne_eq, ← UInt64.toNat_inj, hbit, UInt64.toNat_zero]
    omega
  by_cases hpad : value < 2 ^ 31
  · -- no zero is needed in front
    have hfalse : (decide ((v &&& 0xff000000) &&& 0x80000000 ≠ 0) && !decide (value < 0))
        = false := by
      rw [Bool.and_eq_false_iff, decide_eq_false_iff_not, hbit0]
      by_cases hneg : value < 0
      · simp [hneg]
      · left
        omega
    simp only [hfalse, if_false, Bool.false_eq_true]
    obtain ⟨h1, h4⟩ := shorten_size (decide (value < 0)) 4 v (by omega)
    refine ⟨build (shorten (decide (value < 0)) 4 v).1 (shorten (decide (value < 0)) 4 v).2,
      ⟨by simpa using h1, by rw [length_build]; omega, fun h => ?_, ?_⟩,
      prepareTypeLength_eq (by rw [length_build]; omega)⟩
    · rw [length_build] at h
      omega
    · rw [signedValue_shorten, signedValue_build]
      simp only [signed32, hreg]
      split <;> omega
  · have hcond : decide ((v &&& 0xff000000) &&& 0x80000000 ≠ 0) = true := by
      rw [decide_eq_true_iff, hbit0]
      omega
    have hneg : decide (value < 0) = false := decide_eq_false (by omega)
    have hshort : shorten false 5 v = (5, v) := by
      have hmask := and_0xff800000 v
      rw [shorten, if_neg]
      rintro (h | ⟨-, h⟩)
      · rw [h, UInt64.toNat_zero] at hmask
        omega
      · exact absurd h (by simp)
    simp only [hcond, hneg, Bool.not_false, Bool.and_self, if_true, hshort]
    refine ⟨0 :: build 4 v, ⟨by simp, by simp, fun _ => rfl, ?_⟩, prepareTypeLength_eq (by simp)⟩
    simp only [signedValue, octetsValue_cons, octetsValue_build, UInt8.toNat_zero, hreg]
    simp only [show (0 : Nat) < 128 by omega, if_true]
    omega

/-- The register after the loop over the octets. -/
theorem toNat_int32 (negative : Bool) (bs : Octets) : (int32 negative bs).toNat
    = ((if negative then 2 ^ 64 - 1 else 0) * 256 ^ bs.length + octetsValue bs) % 2 ^ 64 := by
  have hstep : ∀ (i : UInt64) (b : UInt8),
      ((i <<< 8) ||| b.toUInt64).toNat = (i.toNat * 256 + b.toNat) % 2 ^ 64 := by
    intro i b
    have hb : b.toNat < 2 ^ 8 := b.toNat_lt
    have hsplit : i.toNat * 256 % 2 ^ 64 = i.toNat % 2 ^ 56 * 2 ^ 8 := by omega
    rw [UInt64.toNat_or, toNat_shl, UInt8.toNat_toUInt64, hsplit, ← Nat.shiftLeft_eq,
      ← Nat.shiftLeft_add_eq_or_of_lt hb, Nat.shiftLeft_eq]
    omega
  have hfold : ∀ i : UInt64,
      (bs.foldl (fun (i : UInt64) (b : UInt8) => (i <<< 8) ||| b.toUInt64) i).toNat
      = (i.toNat * 256 ^ bs.length + octetsValue bs) % 2 ^ 64 := by
    induction bs with
    | nil =>
        intro i
        simp
    | cons b bs ih =>
        intro i
        rw [List.foldl_cons, ih, hstep, octetsValue_cons, List.length_cons, pow_succ,
          Nat.add_mod, Nat.mod_mul_mod, ← Nat.add_mod]
        ring_nf
  rw [int32, hfold]
  cases negative <;> rfl

variable {env : Env}

/-- Whether a negative number is returned as it is. -/
def Env.keepsSign (env : Env) (type : Asn1Type) : Bool :=
  decide (type = .integer) || !env.translateUnsigned

/-- The sign is the high bit of the first octet. -/
theorem IntegerOctets.high_bit {bs : Octets} {value : Int} (h : IntegerOctets bs value) :
    (bs.headD 0).toNat &&& 0x80 ≠ 0 ↔ value < 0 := by
  obtain ⟨b, bs, rfl⟩ := List.exists_cons_of_ne_nil (List.length_pos_iff.mp h.length_pos)
  have hlt := octetsValue_lt (b :: bs)
  have hval := h.value
  rw [List.headD_cons, ne_eq, and_0x80, ← hval, signedValue]
  split
  · omega
  · rw [List.length_cons] at hlt
    have hpow : ((256 ^ (bs.length + 1) : Nat) : Int) = 256 ^ (bs.length + 1) := by
      push_cast
      rfl
    omega

/-- A positive number has its octets as they are, and four of them are enough. -/
theorem IntegerOctets.nonneg {bs : Octets} {value : Int} (h : IntegerOctets bs value)
    (hv : 0 ≤ value) : (octetsValue bs : Int) = value ∧ octetsValue bs < 2 ^ 32 := by
  have hbit := h.high_bit
  obtain ⟨b, bs, rfl⟩ := List.exists_cons_of_ne_nil (List.length_pos_iff.mp h.length_pos)
  rw [List.headD_cons, ne_eq, and_0x80, not_iff_comm, not_lt] at hbit
  have hsmall : b.toNat < 128 := hbit.mp hv
  have hval := h.value
  rw [signedValue, if_pos hsmall] at hval
  refine ⟨hval, ?_⟩
  have hle := h.length_le
  rw [List.length_cons] at hle
  by_cases hfive : bs.length = 4
  · have hzero : b = 0 := h.head (by rw [List.length_cons, hfive])
    have hlt := octetsValue_lt bs
    rw [hfive] at hlt
    rw [octetsValue_cons, hzero, UInt8.toNat_zero]
    omega
  · calc octetsValue (b :: bs) < 256 ^ (b :: bs).length := octetsValue_lt _
      _ ≤ 256 ^ 4 := Nat.pow_le_pow_right (by decide) (by rw [List.length_cons]; omega)
      _ = 2 ^ 32 := by norm_num

/-- A negative number has at most four octets, and its register is that of the number. -/
theorem IntegerOctets.neg {bs : Octets} {value : Int} (h : IntegerOctets bs value)
    (hv : value < 0) :
    -2 ^ 31 ≤ value ∧ ((int32 true bs).toNat % 2 ^ 32 : Nat) = value + 2 ^ 32 := by
  have hbit := h.high_bit.mpr hv
  obtain ⟨b, bs, rfl⟩ := List.exists_cons_of_ne_nil (List.length_pos_iff.mp h.length_pos)
  rw [List.headD_cons, ne_eq, and_0x80] at hbit
  have hval := h.value
  have hb : b.toNat < 256 := b.toNat_lt
  have hlt := octetsValue_lt bs
  have hle := h.length_le
  rw [List.length_cons] at hle
  have hfour : bs.length ≠ 4 := by
    intro hfour
    have hzero : b = 0 := h.head (by rw [List.length_cons, hfour])
    rw [hzero, UInt8.toNat_zero] at hbit
    omega
  rw [signedValue, if_neg hbit, octetsValue_cons] at hval
  rw [toNat_int32, if_pos rfl, octetsValue_cons, List.length_cons]
  have hlen : bs.length ≤ 3 := by omega
  generalize bs.length = n at *
  interval_cases n <;> norm_num at * <;> omega

/-- **An integer comes back.** A negative one of a type without negative numbers is that of an agent
which left out the zero in front, and is returned as positive when this is asked for. -/
theorem reads_integer32 (type : Asn1Type) {bs : Octets} {value : Int} (h : IntegerOctets bs value) :
    Reads env (processInteger32 type) (lengthOctets bs.length ++ bs)
      (.num (if value < 0 ∧ env.keepsSign type = false then value + 2 ^ 32 else value)) := by
  have hpos := h.length_pos
  have hle := h.length_le
  refine Reads.bind (reads_length (by omega)) ?_
  rw [if_neg (by omega)]
  refine Reads.bind_nil (reads_bufferGet bs) ?_
  have hlong : ¬ (bs.length > 5 ∨ (bs.length > 4 ∧ bs.headD 0 ≠ 0)) := by
    rintro (hlong | ⟨hlong, hhead⟩)
    · omega
    · exact hhead (h.head (by omega))
  rw [if_neg hlong]
  refine Reads.nil_bind reads_env ?_
  simp only [h.high_bit]
  by_cases hv : value < 0
  · obtain ⟨hlo, hreg⟩ := h.neg hv
    simp only [hv, decide_true, true_and]
    by_cases hkeeps : type = .integer ∨ (!env.translateUnsigned) = true
    · have hk : env.keepsSign type = true := by simpa [Env.keepsSign] using hkeeps
      rw [if_pos hkeeps, if_neg (by simp [hk]), signed32, if_neg (by omega), hreg,
        show value + 2 ^ 32 - 2 ^ 32 = value by omega]
      exact Reads.pure _
    · have hk : env.keepsSign type = false := by simpa [Env.keepsSign] using hkeeps
      rw [if_neg hkeeps, if_pos hk, unsigned32, hreg]
      exact Reads.pure _
  · obtain ⟨hval, hsmall⟩ := h.nonneg (by omega)
    have hmod : (int32 false bs).toNat % 2 ^ 32 = octetsValue bs := by
      rw [toNat_int32]
      norm_num
      omega
    simp only [hv, decide_false, false_and, if_false, Bool.false_eq_true]
    rw [unsigned32, hmod, hval]
    exact Reads.pure _

end SnmpCollector.NetSnmp
