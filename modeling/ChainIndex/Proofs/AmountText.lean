import ChainIndex.Proofs.Numerals
import Mathlib.Algebra.Order.Field.Rat
import Mathlib.Tactic.FieldSimp
import Mathlib.Tactic.Linarith

/-!
# Amounts are shown exactly

The text of an amount spells out the rational number that the amount stands for in the unit of its
asset, with just the decimal places that the asset has, and there is only one way to do so. It does
not matter whether a library of decimal numbers has room for the amount or not.
-/

namespace ChainIndex

namespace Numeral

variable {n n' : Numeral} {places : Nat} {raw : Int} {text : String}

/-- The number that a numeral stands for. -/
def value (n : Numeral) : ℚ :=
  (if n.negative then -1 else 1) *
    (Nat.ofDigitChars 10 n.whole 0 + Nat.ofDigitChars 10 n.fraction 0 / 10 ^ n.fraction.length)

/-- A text is the proper numeral of a number with some decimal places. -/
def Spells (text : String) (q : ℚ) (places : Nat) : Prop :=
  ∃ n : Numeral, n.Proper places ∧ n.value = q ∧ n.text = text

/-- The point divides by a power of ten. -/
theorem Proper.value_eq (h : n.Proper places) :
    n.value = (if n.negative then -1 else 1) * n.magnitude / 10 ^ places := by
  have hmagnitude : (n.magnitude : ℚ) =
      10 ^ places * Nat.ofDigitChars 10 n.whole 0 + Nat.ofDigitChars 10 n.fraction 0 := by
    rw [magnitude, ofDigitChars_append_zero, h.places]
    push_cast [Nat.pow_eq]
    rfl
  rw [value, h.places, hmagnitude]
  field_simp

/-- A proper numeral has the value of an amount if it has its sign and its magnitude. -/
theorem Proper.value_eq_iff (h : n.Proper places) :
    n.value = raw / 10 ^ places ↔
      n.negative = decide (raw < 0) ∧ n.magnitude = raw.natAbs := by
  have hscale : (10 : ℚ) ^ places ≠ 0 := by positivity
  have hsigned : n.value = raw / 10 ^ places ↔
      (if n.negative then -1 else 1) * (n.magnitude : Int) = raw := by
    rw [h.value_eq, div_left_inj' hscale]
    constructor
    · intro heq
      have hcast : (((if n.negative then -1 else 1) * (n.magnitude : Int) : Int) : ℚ) = raw := by
        rw [← heq]
        split <;> push_cast <;> rfl
      exact_mod_cast hcast
    · rintro rfl
      split <;> push_cast <;> rfl
  rw [hsigned]
  cases hnegative : n.negative with
  | false =>
    simp only [Bool.false_eq_true, if_false, false_eq_decide_iff]
    omega
  | true =>
    have hnonzero := h.sign hnegative
    simp only [if_true, true_eq_decide_iff]
    omega

/-- The text of an amount is the one that spells its number. -/
theorem spells_iff_writes : Spells text (raw / 10 ^ places) places ↔ Writes text raw places := by
  constructor
  · rintro ⟨n, hn, hvalue, htext⟩
    obtain ⟨hnegative, hmagnitude⟩ := hn.value_eq_iff.1 hvalue
    exact ⟨n, hn, hnegative, hmagnitude, htext⟩
  · rintro ⟨n, hn, hnegative, hmagnitude, htext⟩
    exact ⟨n, hn, hn.value_eq_iff.2 ⟨hnegative, hmagnitude⟩, htext⟩

end Numeral

open Numeral (Spells Writes spells_iff_writes)

namespace Amount

/-- With a library of decimal numbers that can be relied on: the text of an amount is the one that
spells `raw / 10 ^ places` with all of its decimal places; it is the same whether the library writes
it, as far as there is room, or a point is put between the digits of the amount; without a precision,
it spells the amount itself; and no two amounts of the same precision have the same text. -/
theorem amounts_are_shown_exactly {lib : FixedPoint} (hlib : lib.Faithful) :
    (∀ (raw : Int) (places : Nat) (text : String),
        Spells text (raw / 10 ^ places) places ↔ text = scaleWith lib raw (some places)) ∧
      (∀ (raw : Int) (places : Nat), raw.natAbs ≤ 2 ^ 96 - 1 → places ≤ 28 →
        ∃ number, lib.number? raw places = some number ∧
          lib.text number = shiftPoint raw places) ∧
      (∀ (raw : Int) (text : String), Spells text raw 0 ↔ text = scaleWith lib raw none) ∧
      ∀ precision, Function.Injective fun raw => scaleWith lib raw precision := by
  have hplaces := scaleWith_writes hlib
  have hnone := scaleWith_none_writes lib
  refine ⟨fun raw places text => ?_, fun raw places hraw hroom => ?_, fun raw text => ?_, ?_⟩
  · rw [spells_iff_writes]
    exact ⟨fun h => h.unique (hplaces raw places), fun h => h ▸ hplaces raw places⟩
  · obtain ⟨number, hnumber⟩ := Option.isSome_iff_exists.1 ((hlib.room raw places).2 ⟨hraw, hroom⟩)
    refine ⟨number, hnumber, ?_⟩
    rw [hlib.writes hnumber]
    exact (Numeral.writes_longhand raw places).unique (Numeral.writes_shiftPoint raw places)
  · have hwhole : (raw : ℚ) = raw / 10 ^ 0 := by rw [pow_zero, div_one]
    rw [hwhole, spells_iff_writes]
    exact ⟨fun h => h.unique (hnone raw), fun h => h ▸ hnone raw⟩
  · intro precision raw raw' hsame
    replace hsame : scaleWith lib raw' precision = scaleWith lib raw precision := hsame.symm
    cases precision with
    | none => exact (hnone raw).raw_unique (hsame ▸ hnone raw')
    | some places => exact (hplaces raw places).raw_unique (hsame ▸ hplaces raw' places)

/-- The least amount does not fit into 96 bits; amounts of a few digits do, and are filled up with
zeros. -/
theorem amounts_are_shown_exactly_beyond_96_bits :
    FixedPoint.words96.Faithful ∧ (FixedPoint.words96.number? least 8).isNone ∧
      Spells "-1701411834604692317316873037158.84105728" ((least : ℚ) / 10 ^ 8) 8 ∧
      (FixedPoint.words96.number? (-5) 2).isSome ∧ Spells "-0.05" (((-5 : Int) : ℚ) / 10 ^ 2) 2 ∧
      Spells "-5" (((-5 : Int) : ℚ)) 0 := by
  obtain ⟨hplaces, -, hnone, -⟩ := amounts_are_shown_exactly FixedPoint.words96_faithful
  refine ⟨FixedPoint.words96_faithful, by decide, (hplaces least 8 _).2 ?_, by decide,
    (hplaces (-5) 2 _).2 ?_, (hnone (-5) _).2 ?_⟩
  all_goals decide +kernel

end Amount

end ChainIndex
