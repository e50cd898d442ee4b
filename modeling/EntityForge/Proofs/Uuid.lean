import EntityForge.Identifier.Uuid
import Mathlib.Data.Nat.Bitwise

/-!
# Identifiers ordered by time

The parts of an identifier are shifted to their places and joined bit by bit. No two of them meet:
each bit of an identifier is that of one part, which is said once and read from there. So an
identifier fits its width and shows its version, its variant and its time; one of an earlier time is
the smaller; and of the random number just the bits in the places of version and variant are without
effect.
-/

namespace EntityForge.Uuid

variable {front version random n i : Nat}

/-! ## Single bits -/

theorem testBit_above : (above n random).testBit i = random.testBit (n + i) :=
  Nat.testBit_shiftRight random

theorem below_eq_mod : below n random = random % 2 ^ n := by
  rw [below, Nat.one_shiftLeft, Nat.and_two_pow_sub_one_eq_mod]

theorem testBit_below : (below n random).testBit i = (decide (i < n) && random.testBit i) := by
  rw [below_eq_mod, Nat.testBit_mod_two_pow]

/-- Each bit of an identifier is a bit of one of its parts. -/
theorem testBit_assemble (hv : version < 2 ^ 4) : (assemble front version random).bits.testBit i =
    if i < 62 then random.testBit i
    else if i < 64 then decide (i = 63)
    else if i < 76 then random.testBit i
    else if i < 80 then version.testBit (i - 76)
    else front.testBit (i - 80) := by
  have hversion : 80 ≤ i → version.testBit (i - 76) = false := fun h =>
    Nat.testBit_lt_two_pow (hv.trans_le (Nat.pow_le_pow_right (by decide) (by omega)))
  have htwo : Nat.testBit 2 (i - 62) = decide (1 = i - 62) :=
    Nat.testBit_two_pow (n := 1) (m := i - 62)
  simp only [assemble, Nat.testBit_or, Nat.testBit_shiftLeft, testBit_below, testBit_above, htwo]
  grind

/-! ## Parts -/

/-- In front of the version stand the bits given for that place. -/
theorem above_assemble (hv : version < 2 ^ 4) :
    above 80 (assemble front version random).bits = front := by
  refine Nat.eq_of_testBit_eq fun i => ?_
  rw [testBit_above, testBit_assemble hv, if_neg (by omega), if_neg (by omega), if_neg (by omega),
    if_neg (by omega), Nat.add_sub_cancel_left]

theorem version_assemble (hv : version < 2 ^ 4) :
    (assemble front version random).version = version := by
  refine Nat.eq_of_testBit_eq fun i => ?_
  rw [Uuid.version, testBit_below, testBit_above, testBit_assemble hv]
  by_cases hi : i < 4
  · rw [if_neg (by omega), if_neg (by omega), if_neg (by omega), if_pos (by omega),
      Nat.add_sub_cancel_left, decide_eq_true hi, Bool.true_and]
  · have hbit : version.testBit i = false :=
      Nat.testBit_lt_two_pow (hv.trans_le (Nat.pow_le_pow_right (by decide) (by omega)))
    rw [decide_eq_false hi, Bool.false_and, hbit]

/-- The two bits of the variant are 1 and 0. -/
theorem variant_assemble (hv : version < 2 ^ 4) :
    (assemble front version random).variant = 2 := by
  refine Nat.eq_of_testBit_eq fun i => ?_
  have htwo : Nat.testBit 2 i = decide (1 = i) := Nat.testBit_two_pow (n := 1) (m := i)
  rw [variant, testBit_below, testBit_above, testBit_assemble hv, htwo]
  by_cases hi : i < 2
  · rw [if_neg (by omega), if_pos (by omega), decide_eq_true hi, Bool.true_and, decide_eq_decide]
    omega
  · rw [decide_eq_false hi, Bool.false_and, decide_eq_false (by omega)]

theorem bits_assemble_lt (hv : version < 2 ^ 4) (hf : front < 2 ^ 48) :
    (assemble front version random).bits < 2 ^ 128 := by
  refine Nat.lt_pow_two_of_testBit _ fun i hi => ?_
  rw [testBit_assemble hv, if_neg (by omega), if_neg (by omega), if_neg (by omega),
    if_neg (by omega)]
  exact Nat.testBit_lt_two_pow (hf.trans_le (Nat.pow_le_pow_right (by decide) (by omega)))

/-- Two random numbers give one identifier exactly if they agree on the bits behind the variant and
on those between version and variant. -/
theorem assemble_eq_iff (hv : version < 2 ^ 4) {r₁ r₂ : Nat} :
    assemble front version r₁ = assemble front version r₂ ↔
      ∀ i, i < 62 ∨ 64 ≤ i ∧ i < 76 → r₁.testBit i = r₂.testBit i := by
  constructor
  · rintro h i (hi | ⟨hlow, hhigh⟩)
    · have hbit := congrArg (fun u : Uuid => u.bits.testBit i) h
      simpa only [testBit_assemble hv, if_pos hi] using hbit
    · have hbit := congrArg (fun u : Uuid => u.bits.testBit i) h
      simpa only [testBit_assemble hv, if_neg (show ¬ i < 62 by omega),
        if_neg (show ¬ i < 64 by omega), if_pos hhigh] using hbit
  · intro h
    have hbits : (assemble front version r₁).bits = (assemble front version r₂).bits := by
      refine Nat.eq_of_testBit_eq fun i => ?_
      rw [testBit_assemble hv, testBit_assemble hv]
      split
      · exact h i (Or.inl ‹_›)
      · split
        · rfl
        · split
          · exact h i (Or.inr ⟨by omega, ‹_›⟩)
          · rfl
    exact congrArg Uuid.mk hbits

/-! ## Identifiers of times -/

/-- The time in an identifier is the time modulo the 48 bits for it. -/
theorem above_ofTime (t : Int) (r : Nat) : (above 80 (ofTime t r).bits : Int) = t % 2 ^ 48 := by
  rw [ofTime, above_assemble (by decide)]
  exact Int.toNat_of_nonneg (Int.emod_nonneg t (by decide))

/-- Of two identifiers, the one with the earlier time in it is the smaller. -/
theorem bits_ofTime_lt {t₁ t₂ : Int} (h : t₁ % 2 ^ 48 < t₂ % 2 ^ 48) (r₁ r₂ : Nat) :
    (ofTime t₁ r₁).bits < (ofTime t₂ r₂).bits := by
  rw [← above_ofTime t₁ r₁, ← above_ofTime t₂ r₂, Int.ofNat_lt, above, above,
    Nat.shiftRight_eq_div_pow, Nat.shiftRight_eq_div_pow] at h
  exact Nat.lt_of_div_lt_div h

/-- An identifier for a time has 128 bits, its version is 7, its variant 10, and in front of both
stands the time modulo 48 bits. Until these run out, one of an earlier time is smaller, whatever the
random numbers. At one time identifiers are the same exactly if the random numbers agree on the 74
bits that are used. -/
theorem ofTime_ordered :
    (∀ (t : Int) (r : Nat), (ofTime t r).bits < 2 ^ 128 ∧ (ofTime t r).version = 7 ∧
      (ofTime t r).variant = 0b10 ∧ (above 80 (ofTime t r).bits : Int) = t % 2 ^ 48) ∧
    (∀ t₁ t₂ r₁ r₂ : Nat, t₁ < t₂ → t₂ < 2 ^ 48 →
      (ofTime t₁ r₁).bits < (ofTime t₂ r₂).bits) ∧
    ∀ (t : Int) (r₁ r₂ : Nat), ofTime t r₁ = ofTime t r₂ ↔
      ∀ i, i < 62 ∨ 64 ≤ i ∧ i < 76 → r₁.testBit i = r₂.testBit i := by
  have hversion : 7 < 2 ^ 4 := by decide
  refine ⟨fun t r => ⟨bits_assemble_lt hversion ?_, version_assemble hversion,
    variant_assemble hversion, above_ofTime t r⟩, fun t₁ t₂ r₁ r₂ h ht => ?_,
    fun t r₁ r₂ => assemble_eq_iff hversion⟩
  · have hlt : t % 2 ^ 48 < 2 ^ 48 := Int.emod_lt_of_pos t (by decide)
    change (t % 2 ^ 48).toNat < 2 ^ 48
    omega
  · refine bits_ofTime_lt ?_ r₁ r₂
    omega

/-- The greatest random number at one time stays below the least one a millisecond later. -/
theorem ofTime_ordered_next : (1 : Nat) < 2 ∧ 2 < 2 ^ 48 ∧
    (ofTime 1 (2 ^ 80 - 1)).bits < (ofTime 2 0).bits :=
  ⟨by decide, by decide, ofTime_ordered.2.1 1 2 (2 ^ 80 - 1) 0 (by decide) (by decide)⟩

end EntityForge.Uuid
