import ChainIndex.Chain.Operation
import ChainIndex.Scan.WideTable
import Mathlib.Data.List.Nodup

/-!
# The names of wide tables

Different operation types have different tables: neither the ending that table names leave out nor
the letters that they rewrite make two names the same.
-/

namespace ChainIndex

open Operation (catalogue typeName)
open Scan.WideTable (base tableChar typeEnding)

/-! ## Integers as texts -/

theorem toDigits_injective {n n' : Nat} (h : Nat.toDigits 10 n = Nat.toDigits 10 n') : n = n' := by
  simpa using congrArg (Nat.ofDigitChars 10 · 0) h

theorem isDigit_of_mem_digits {n : Nat} {c : Char} (h : c ∈ Nat.toDigits 10 n) : c.isDigit :=
  Nat.isDigit_of_mem_toDigits (by decide) (by decide) h

/-- The text of an integer ends with a digit. -/
theorem isDigit_getLast_intChars (n : Int) :
    ∃ c, (Json.intChars n).getLast? = some c ∧ c.isDigit := by
  have hsome : ((Nat.toDigits 10 n.natAbs).getLast?).isSome :=
    List.getLast?_isSome.2 Nat.toDigits_ne_nil
  obtain ⟨last, hlast⟩ := Option.isSome_iff_exists.1 hsome
  refine ⟨last, ?_, isDigit_of_mem_digits (List.mem_of_getLast? hlast)⟩
  unfold Json.intChars
  split
  · rw [List.getLast?_cons, hlast]
    rfl
  · exact hlast

namespace Scan.WideTable

/-! ## Types without an entry in the catalogue -/

/-- What the names of types without an entry begin with. -/
def unknownType : List Char := "unknown_operation_".toList

theorem tableChar_of_isDigit {c : Char} (h : c.isDigit) : tableChar c = c := by
  have halphanum : c.isAlphanum := by simp [Char.isAlphanum, h]
  have hlower : c.toLower = c := by
    unfold Char.toLower
    rw [dif_neg]
    -- digits come before letters
    simp only [Char.isDigit, Bool.and_eq_true, decide_eq_true_eq] at h
    intro hletter
    exact absurd (UInt32.le_trans hletter.1 h.2) (by decide)
  rw [tableChar, if_pos halphanum, hlower]

theorem map_tableChar_digits (n : Nat) :
    (Nat.toDigits 10 n).map tableChar = Nat.toDigits 10 n :=
  (List.map_congr_left fun _ h => tableChar_of_isDigit (isDigit_of_mem_digits h)).trans
    (List.map_id' _)

/-- A name that ends with a digit has no ending that is left out. -/
theorem base_of_digit {name : List Char} {c : Char} (hlast : name.getLast? = some c)
    (hdigit : c.isDigit) : base name = name := by
  unfold base
  rw [if_neg]
  intro hsuffix
  obtain ⟨front, rfl⟩ := List.isSuffixOf_iff_suffix.1 hsuffix
  rw [List.getLast?_append] at hlast
  cases hlast
  exact absurd hdigit (by decide)

/-- The table name of a type without an entry shows its code. -/
theorem base_unknown (code : Int) :
    (base ("unknown_operation_" ++ String.ofList (Json.intChars code)).toList).map tableChar =
      unknownType ++ (Json.intChars code).map tableChar := by
  obtain ⟨c, hlast, hdigit⟩ := isDigit_getLast_intChars code
  have hend : (unknownType ++ Json.intChars code).getLast? = some c := by
    rw [List.getLast?_append, hlast]
    rfl
  have hfixed : unknownType.map tableChar = unknownType := by decide +kernel
  have hname : ("unknown_operation_" ++ String.ofList (Json.intChars code)).toList =
      unknownType ++ Json.intChars code :=
    String.toList_append.trans (congrArg (unknownType ++ ·) String.toList_ofList)
  rw [hname, base_of_digit hend hdigit, List.map_append, hfixed]

/-- The sign and the digits of a code are told apart in a table name. -/
theorem intChars_tableChar_injective {code code' : Int}
    (h : (Json.intChars code).map tableChar = (Json.intChars code').map tableChar) :
    code = code' := by
  -- a minus sign is shown as an underscore, which is no digit
  have hsign : ∀ n n' : Nat, tableChar '-' :: Nat.toDigits 10 n ≠ Nat.toDigits 10 n' := by
    intro n n' hsame
    have hmem : tableChar '-' ∈ Nat.toDigits 10 n' := by simp [← hsame]
    exact absurd (isDigit_of_mem_digits hmem) (by decide)
  simp only [Json.intChars] at h
  split at h <;> split at h <;> simp only [List.map_cons, map_tableChar_digits] at h
  · have habs := toDigits_injective (List.cons.inj h).2
    omega
  · exact absurd h (hsign _ _)
  · exact absurd h.symm (hsign _ _)
  · have habs := toDigits_injective h
    omega

/-! ## All types -/

theorem name_eq_iff {typeName typeName' : String} :
    name typeName = name typeName' ↔
      (base typeName.toList).map tableChar = (base typeName'.toList).map tableChar := by
  unfold name
  rw [String.append_right_inj, String.ofList_inj]

/-- The table names of the types with an entry are different. -/
theorem nodup_catalogue :
    (catalogue.map fun entry => (base entry.2.toList).map tableChar).Nodup := by
  decide +kernel

theorem not_unknown_catalogue : ∀ entry ∈ catalogue,
    unknownType.isPrefixOf ((base entry.2.toList).map tableChar) = false := by
  decide +kernel

theorem mem_of_lookup {α : Type} {key : Int} {value : α} {entries : List (Int × α)}
    (h : entries.lookup key = some value) : (key, value) ∈ entries := by
  obtain ⟨before, after, rfl, -⟩ := List.lookup_eq_some_iff.1 h
  simp

/-- Different operation types have different tables. -/
theorem name_typeName_injective {code code' : Int}
    (h : name (typeName code) = name (typeName code')) : code = code' := by
  -- a type with an entry has not the table of one without
  have hother : ∀ {known : String} {code code' : Int}, catalogue.lookup code = some known →
      (base known.toList).map tableChar ≠ unknownType ++ (Json.intChars code').map tableChar := by
    intro known code code' hknown hsame
    have hbegins := not_unknown_catalogue _ (mem_of_lookup hknown)
    rw [hsame] at hbegins
    exact absurd (List.isPrefixOf_iff_prefix.2 (List.prefix_append unknownType _))
      (by rw [hbegins]; decide)
  rw [name_eq_iff] at h
  unfold typeName at h
  cases hknown : catalogue.lookup code with
  | some known =>
    cases hknown' : catalogue.lookup code' with
    | some known' =>
      rw [hknown, hknown'] at h
      exact congrArg Prod.fst (List.inj_on_of_nodup_map nodup_catalogue (mem_of_lookup hknown)
        (mem_of_lookup hknown') h)
    | none =>
      rw [hknown, hknown', base_unknown] at h
      exact absurd h (hother hknown)
  | none =>
    cases hknown' : catalogue.lookup code' with
    | some known' =>
      rw [hknown, hknown', base_unknown] at h
      exact absurd h.symm (hother hknown')
    | none =>
      rw [hknown, hknown', base_unknown, base_unknown, List.append_cancel_left_eq] at h
      exact intChars_tableChar_injective h

end Scan.WideTable

end ChainIndex
