/-!
# Decimal numbers of a fixed size

A library of decimal numbers keeps an integer and a count of decimal places, as far as it has room
for them, and writes the number that they stand for with all of its places. `FixedPoint` is what is
used of such a library, `FixedPoint.Faithful` what is relied on, and `FixedPoint.words96` a library
of that kind.
-/

namespace ChainIndex

/-- A library of decimal numbers. -/
structure FixedPoint where
  Number : Type
  /-- The number `raw / 10 ^ places`, if there is room for it. -/
  number? (raw : Int) (places : Nat) : Option Number
  text : Number → String

namespace FixedPoint

/-- The greatest magnitude that there is room for, `2 ^ 96 - 1`. -/
def greatestMagnitude : Nat := 79228162514264337593543950335

/-- The most decimal places that there is room for. -/
def mostPlaces : Nat := 28

/-- The number `raw / 10 ^ places` in full: its sign, its whole part and all of its places. -/
def longhand (raw : Int) (places : Nat) : String :=
  let one := Nat.pow 10 places
  let whole := Nat.toDigits 10 (raw.natAbs / one)
  let fraction := (Nat.toDigits 10 (raw.natAbs % one)).leftpad places '0'
  String.ofList ((if raw < 0 then ['-'] else []) ++ whole ++
    if places = 0 then [] else '.' :: fraction)

/-- What is relied on: how much room there is, and that numbers are written in full. -/
structure Faithful (lib : FixedPoint) : Prop where
  room : ∀ raw places, (lib.number? raw places).isSome ↔
    raw.natAbs ≤ greatestMagnitude ∧ places ≤ mostPlaces
  writes : ∀ {raw places number}, lib.number? raw places = some number →
    lib.text number = longhand raw places

/-- Numbers of 96 bits. -/
def words96 : FixedPoint where
  Number := Int × Nat
  number? raw places :=
    if raw.natAbs ≤ greatestMagnitude ∧ places ≤ mostPlaces then some (raw, places) else none
  text number := longhand number.1 number.2

theorem words96_faithful : words96.Faithful where
  room raw places := by
    simp only [words96]
    split <;> simp_all
  writes {raw places number} h := by
    simp only [words96] at h
    split at h
    · rw [← Option.some.inj h]
      rfl
    · cases h

end FixedPoint

end ChainIndex
