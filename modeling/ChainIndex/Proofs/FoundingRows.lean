import ChainIndex.Proofs.Lookups
import ChainIndex.Scan.WideTable
import Mathlib.Data.List.Forall2

/-!
# The row of the payload that founds a table

The payload that founds a table of an operation type is the first to get a row in it. Each of its
members has a column of its own, and its value is in it: an integer as what it is, a text as it is,
everything else as compact JSON text. The kind of a column is chosen without a look at how great an
integer is, so that one that does not fit into a column of 64 bits is left out.
-/

namespace ChainIndex.Scan.WideTable

/-- An integer that a column for integers holds. -/
def Fits (n : Int) : Prop := int64Min ≤ n ∧ n ≤ int64Max

instance (n : Int) : Decidable (Fits n) := inferInstanceAs (Decidable (_ ∧ _))

/-- What the column that a value has called for has in it for the value. -/
inductive Keeps : Json → Cell → Prop where
  | null : Keeps .null (.text none)
  | integer {n : Int} (fits : Fits n) : Keeps (.int n) (.bigInt (some n))
  | tooGreat {n : Int} (fits : ¬Fits n) : Keeps (.int n) (.bigInt none)
  | string (s : String) : Keeps (.str s) (.text (some s))
  | bool (b : Bool) : Keeps (.bool b) (.text (some (Json.bool b).text))
  | float (x : Double) : Keeps (.float x) (.text (some (Json.float x).text))
  | array (items : List Json) : Keeps (.arr items) (.text (some (Json.arr items).text))
  | object (members : Members) : Keeps (.obj members) (.text (some (Json.obj members).text))

variable {v : Json} {c : Cell}

/-- Choosing a column for a value and filling it agree on this. -/
theorem keeps_iff : Keeps v c ↔ c = cell (kindOf v) v := by
  constructor
  · intro h
    cases h with
    | integer fits => exact congrArg Cell.bigInt (if_pos fits).symm
    | tooGreat fits => exact congrArg Cell.bigInt (if_neg fits).symm
    | _ => rfl
  · rintro rfl
    cases v with
    | null => exact .null
    | bool b => exact .bool b
    | int n =>
      by_cases hfits : Fits n
      · have hcell : cell (kindOf (.int n)) (.int n) = .bigInt (some n) :=
          congrArg Cell.bigInt (if_pos hfits)
        exact hcell ▸ .integer hfits
      · have hcell : cell (kindOf (.int n)) (.int n) = .bigInt none :=
          congrArg Cell.bigInt (if_neg hfits)
        exact hcell ▸ .tooGreat hfits
    | float x => exact .float x
    | str s => exact .string s
    | arr items => exact .array items
    | obj members => exact .object members

/-- A cell that says nothing. -/
def IsEmpty (c : Cell) : Prop := c = .bigInt none ∨ c = .text none

/-- Nothing is said of nothing, and of integers that do not fit. -/
theorem Keeps.isEmpty_iff (h : Keeps v c) : IsEmpty c ↔ v = .null ∨ ∃ n, v = .int n ∧ ¬Fits n := by
  cases h <;> simp_all [IsEmpty]

/-- An integer column has the integer in it, or nothing. -/
theorem Keeps.bigInt_iff (h : Keeps v c) : c.kind = .bigInt ↔ ∃ n, v = .int n := by
  cases h <;> simp [Cell.kind]

/-- Every member has its column. -/
theorem row_columnsOf (p : Payload) :
    row (columnsOf p) p =
      p.members.map fun member => (member.1, cell (kindOf member.2) member.2) := by
  unfold row columnsOf
  rw [List.filterMap_map, ← List.filterMap_eq_map]
  refine List.filterMap_congr fun member hmember => ?_
  have hvalue : p.get? member.1 = some member.2 :=
    Store.Memory.lookup_of_mem p.keys_nodup hmember
  simp only [Function.comp_apply, hvalue, Option.map_some]

/-- The row that a payload gets in the table that it founds has an entry for each of its keys, in
the order of the keys, with the value as its column keeps it: the entry is empty only if the value is
null or an integer that does not fit; if it is an integer, it is the value; if it is a text, it is
the value, or the compact text of the value. A column is one for integers just where the value is
an integer. -/
theorem founding_row_keeps_payload (p : Payload) :
    (row (columnsOf p) p).map (·.1) = p.keys ∧
      List.Forall₂ (fun member entry => entry.1 = member.1 ∧ Keeps member.2 entry.2)
        p.members (row (columnsOf p) p) ∧
      ∀ key entry, (key, entry) ∈ row (columnsOf p) p → ∃ value, p.get? key = some value ∧
        (IsEmpty entry ↔ value = .null ∨ ∃ n, value = .int n ∧ ¬Fits n) ∧
        (∀ n, entry = .bigInt (some n) → value = .int n) ∧
        (∀ s, entry = .text (some s) → value = .str s ∨ s = value.text) ∧
        (entry.kind = .bigInt ↔ ∃ n, value = .int n) := by
  rw [row_columnsOf]
  refine ⟨by simp [Payload.keys], ?_, fun key entry hentry => ?_⟩
  · rw [List.forall₂_map_right_iff, List.forall₂_same]
    exact fun member _ => ⟨rfl, keeps_iff.2 rfl⟩
  · obtain ⟨⟨name, value⟩, hmember, heq⟩ := List.mem_map.1 hentry
    cases heq
    have hkeeps : Keeps value (cell (kindOf value) value) := keeps_iff.2 rfl
    refine ⟨value, Store.Memory.lookup_of_mem p.keys_nodup hmember, hkeeps.isEmpty_iff, ?_, ?_,
      hkeeps.bigInt_iff⟩
    · intro n hn
      rw [hn] at hkeeps
      cases hkeeps
      rfl
    · intro s hs
      rw [hs] at hkeeps
      cases hkeeps with
      | string => exact .inl rfl
      | _ => exact .inr rfl

/-- A payload with values of several kinds. -/
def assorted : Payload :=
  Payload.ofMembers [("memo", .null), ("amount", .int (-5)), ("limit", .int int64Max),
    ("name", .str "5"), ("extensions", .arr [.bool true, .obj [("id", .int 7)]])]

theorem founding_row_keeps_assorted :
    row (columnsOf assorted) assorted =
        [("amount", .bigInt (some (-5))), ("extensions", .text (some "[true,\x7b\"id\":7\x7d]")),
          ("limit", .bigInt (some 9223372036854775807)), ("memo", .text none),
          ("name", .text (some "5"))] ∧
      (row (columnsOf assorted) assorted).map (·.1) = assorted.keys ∧
      ∃ value, assorted.get? "amount" = some value ∧ value = .int (-5) := by
  obtain ⟨hkeys, -, hentries⟩ := founding_row_keeps_payload assorted
  have hrow : row (columnsOf assorted) assorted =
      [("amount", .bigInt (some (-5))), ("extensions", .text (some "[true,\x7b\"id\":7\x7d]")),
        ("limit", .bigInt (some 9223372036854775807)), ("memo", .text none),
        ("name", .text (some "5"))] := by
    decide +kernel
  obtain ⟨value, hvalue, -, hinteger, -⟩ :=
    hentries "amount" (.bigInt (some (-5))) (by rw [hrow]; exact List.mem_cons_self)
  exact ⟨hrow, hkeys, value, hvalue, hinteger _ rfl⟩

/-- A payload with an integer of 64 bits. -/
def overlong : Payload := Payload.ofMembers [("n", .int 9223372036854775808)]

/-- The integer is not kept, though a column for integers is chosen. -/
theorem founding_row_lacks_integer :
    columnsOf overlong = [⟨"n", .bigInt⟩] ∧ overlong.get? "n" = some (.int 9223372036854775808) ∧
      row (columnsOf overlong) overlong = [("n", .bigInt none)] :=
  ⟨by decide +kernel, rfl, by decide +kernel⟩

end ChainIndex.Scan.WideTable
