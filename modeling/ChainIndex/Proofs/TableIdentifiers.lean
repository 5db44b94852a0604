import ChainIndex.Proofs.TableNames
import ChainIndex.Store.Schema
import Mathlib

/-!
# Wide tables among the tables of a database

A database folds the letters of a name to lower case unless the name is quoted, and cuts names off
after 63 bytes. The name of a wide table has nothing to fold and is short enough, so that types with
tables of different names have different tables, and none of these is a fixed table.
-/

namespace ChainIndex.Scan.WideTable

open Operation (catalogue typeName)
open Store (Schema.tableNames)

/-! ## Characters -/

/-- Lower-case ASCII letters, ASCII digits and the underscore. -/
def IsPlain (c : Char) : Prop := c.isLower ∨ c.isDigit ∨ c = '_'

/-- Whatever the characters of a type name are, those of its table name are plain. -/
theorem isPlain_tableChar (c : Char) : IsPlain (tableChar c) := by
  by_cases halpha : c.isAlpha
  · have hlower : c.toLower.isLower := by rw [Char.isLower_toLower_eq_isAlpha, halpha]
    rw [tableChar, if_pos (by simp [Char.isAlphanum, halpha])]
    exact .inl hlower
  by_cases hdigit : c.isDigit
  · rw [tableChar_of_isDigit hdigit]
    exact .inr (.inl hdigit)
  · rw [tableChar, if_neg (by simp [Char.isAlphanum, halpha, hdigit])]
    exact .inr (.inr rfl)

theorem utf8Size_of_isDigit {c : Char} (h : c.isDigit) : c.utf8Size = 1 := by
  simp only [Char.isDigit, Bool.and_eq_true, decide_eq_true_eq] at h
  exact Char.utf8Size_eq_one_iff.2 (UInt32.le_trans h.2 (by decide))

theorem IsPlain.utf8Size {c : Char} (h : IsPlain c) : c.utf8Size = 1 := by
  rcases h with h | h | rfl
  · simp only [Char.isLower, Bool.and_eq_true, decide_eq_true_eq] at h
    exact Char.utf8Size_eq_one_iff.2 (UInt32.le_trans h.2 (by decide))
  · exact utf8Size_of_isDigit h
  · decide

/-! ## Names -/

/-- What the names of wide tables begin with. -/
def namePrefix : List Char := ['o', 'p', '_']

theorem toList_name (typeName : String) :
    (name typeName).toList = namePrefix ++ (base typeName.toList).map tableChar := by
  unfold name
  rw [String.toList_append, String.toList_ofList, String.toList_ofList]
  rfl

theorem isPlain_of_mem_name {typeName : String} {c : Char} (h : c ∈ (name typeName).toList) :
    IsPlain c := by
  rw [toList_name] at h
  rcases List.mem_append.1 h with hfront | hrest
  · simp only [namePrefix, List.mem_cons, List.not_mem_nil, or_false] at hfront
    rcases hfront with rfl | rfl | rfl
    · exact .inl rfl
    · exact .inl rfl
    · exact .inr (.inr rfl)
  · obtain ⟨d, -, rfl⟩ := List.mem_map.1 hrest
    exact isPlain_tableChar d

/-- The names of the fixed tables begin in other ways. -/
theorem not_prefix_tableNames : ∀ table ∈ Schema.tableNames,
    namePrefix.isPrefixOf table.toList = false := by
  decide +kernel

theorem name_not_mem_tableNames (typeName : String) : name typeName ∉ Schema.tableNames := by
  intro hfixed
  have hother := not_prefix_tableNames _ hfixed
  rw [toList_name, List.isPrefixOf_iff_prefix.2 (List.prefix_append _ _)] at hother
  cases hother

/-! ## Lengths -/

/-- The characters of a table name take no more room than those of the type name. -/
theorem utf8Len_map_tableChar_le (cs : List Char) :
    String.utf8Len (cs.map tableChar) ≤ String.utf8Len cs := by
  induction cs with
  | nil => exact Nat.le_refl _
  | cons c cs ih =>
    have hchar : (tableChar c).utf8Size = 1 := (isPlain_tableChar c).utf8Size
    have hpos := Char.utf8Size_pos c
    simp only [List.map_cons, String.utf8Len_cons, hchar]
    omega

/-- A table name is longer than the type name by its beginning at most. -/
theorem utf8ByteSize_name_le (typeName : String) :
    (name typeName).utf8ByteSize ≤ 3 + typeName.utf8ByteSize := by
  have hbase : String.utf8Len (base typeName.toList) ≤ String.utf8Len typeName.toList := by
    unfold base
    split
    · exact String.utf8Len_le_of_prefix (List.take_prefix _ _)
    · exact Nat.le_refl _
  have hprefix : String.utf8Len namePrefix = 3 := by decide
  calc (name typeName).utf8ByteSize
    _ = String.utf8Len namePrefix +
        String.utf8Len ((base typeName.toList).map tableChar) := by
      rw [← String.utf8Len_toList, toList_name, String.utf8Len_append]
    _ ≤ 3 + String.utf8Len typeName.toList := by
      have hchars := utf8Len_map_tableChar_le (base typeName.toList)
      omega
    _ = 3 + typeName.utf8ByteSize := by rw [String.utf8Len_toList]

theorem utf8Len_digits (n : Nat) :
    String.utf8Len (Nat.toDigits 10 n) = (Nat.toDigits 10 n).length := by
  have hone : ∀ cs : List Char, (∀ c ∈ cs, c.isDigit) → String.utf8Len cs = cs.length := by
    intro cs h
    induction cs with
    | nil => rfl
    | cons c cs ih =>
      rw [String.utf8Len_cons, ih fun d hd => h d (List.mem_cons_of_mem c hd),
        utf8Size_of_isDigit (h c List.mem_cons_self), List.length_cons]
  exact hone _ fun c => isDigit_of_mem_digits

/-- The longest integers of 64 bits have a sign and 19 digits. -/
theorem utf8Len_intChars_le {code : Int} (h : int64Min ≤ code ∧ code ≤ int64Max) :
    String.utf8Len (Json.intChars code) ≤ 20 := by
  have hdigits : (Nat.toDigits 10 code.natAbs).length ≤ 19 := by
    apply Nat.toDigits_length 10 code.natAbs 19 (by decide)
    unfold int64Min int64Max at h
    omega
  have hsign : '-'.utf8Size = 1 := by decide
  unfold Json.intChars
  split
  · rw [String.utf8Len_cons, utf8Len_digits, hsign]
    omega
  · rw [utf8Len_digits]
    omega

theorem utf8ByteSize_catalogue : ∀ entry ∈ catalogue, entry.2.utf8ByteSize ≤ 60 := by
  decide +kernel

theorem utf8ByteSize_typeName_le {code : Int} (h : int64Min ≤ code ∧ code ≤ int64Max) :
    (typeName code).utf8ByteSize ≤ 60 := by
  unfold typeName
  cases hknown : catalogue.lookup code with
  | some known => exact utf8ByteSize_catalogue _ (mem_of_lookup hknown)
  | none =>
    have hcode := utf8Len_intChars_le h
    have hfront : "unknown_operation_".utf8ByteSize = 18 := by decide
    calc ("unknown_operation_" ++ String.ofList (Json.intChars code)).utf8ByteSize
      _ = "unknown_operation_".utf8ByteSize + String.utf8Len (Json.intChars code) :=
        String.utf8ByteSize_append.trans (congrArg _ (String.utf8ByteSize_ofList _))
      _ ≤ 60 := by omega

/-! ## All types -/

/-- Different operation types have different tables. The names of these begin in the same way, are
plain and not cut off, and none of them is the name of a fixed table. -/
theorem types_have_tables_of_their_own :
    (∀ code code' : Int, name (typeName code) = name (typeName code') → code = code') ∧
      ∀ code : Int, int64Min ≤ code → code ≤ int64Max →
        "op_".toList <+: (name (typeName code)).toList ∧
          (∀ c ∈ (name (typeName code)).toList, IsPlain c) ∧
          (name (typeName code)).utf8ByteSize ≤ 63 ∧
          name (typeName code) ∉ Schema.tableNames := by
  refine ⟨fun code code' => name_typeName_injective, fun code hmin hmax => ⟨?_, ?_, ?_, ?_⟩⟩
  · unfold name
    rw [String.toList_append]
    exact List.prefix_append _ _
  · exact fun c => isPlain_of_mem_name
  · have hname := utf8ByteSize_name_le (typeName code)
    have htype := utf8ByteSize_typeName_le ⟨hmin, hmax⟩
    omega
  · exact name_not_mem_tableNames _

/-- The least code has the longest name of all types without an entry, and the sign is not lost in
it. -/
theorem least_type_has_table_of_its_own :
    int64Min ≤ int64Min ∧ int64Min ≤ int64Max ∧
      name (typeName int64Min) = "op_unknown_operation__9223372036854775808" ∧
      name (typeName int64Min) ≠ name (typeName (-int64Min)) ∧
      (name (typeName int64Min)).utf8ByteSize ≤ 63 ∧
      name (typeName int64Min) ∉ Schema.tableNames := by
  have hmin : int64Min ≤ int64Min := Int.le_refl _
  have hmax : int64Min ≤ int64Max := by decide
  have hname : name (typeName int64Min) = "op_unknown_operation__9223372036854775808" := by
    decide +kernel
  obtain ⟨hinjective, hplain⟩ := types_have_tables_of_their_own
  obtain ⟨-, -, hsize, hfixed⟩ := hplain int64Min hmin hmax
  refine ⟨hmin, hmax, hname, fun hsame => ?_, hsize, hfixed⟩
  exact absurd (hinjective int64Min (-int64Min) hsame) (by decide)

end ChainIndex.Scan.WideTable
