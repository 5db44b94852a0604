import ChainIndex.Number.Double

/-!
# JSON values

The value type that the node's free fields hold, and the objects among them as lists of members in
key order. An integer lies in the range that 64 bits can hold, signed or unsigned; every other
number is a double. `Members.put` keeps the order of keys and lets the last value of a key win.
-/

namespace ChainIndex

/-- A JSON value. -/
inductive Json where
  | null
  | bool (b : Bool)
  | int (n : Int)
  | float (x : Double)
  | str (s : String)
  | arr (items : List Json)
  | obj (members : List (String × Json))
deriving Repr, Inhabited

/-- The least integer that a signed word of 64 bits holds, `-2 ^ 63`. -/
def int64Min : Int := -9223372036854775808

/-- The greatest integer that a signed word of 64 bits holds, `2 ^ 63 - 1`. -/
def int64Max : Int := 9223372036854775807

/-- The greatest number that a word of 64 bits holds, `2 ^ 64 - 1`. -/
def word64Max : Nat := 18446744073709551615

namespace Json

/-- The text of a string value. -/
def text? : Json → Option String
  | .str s => some s
  | _ => none

/-- The integer of a value that a signed word of 64 bits holds. -/
def int64? : Json → Option Int
  | .int n => if int64Min ≤ n ∧ n ≤ int64Max then some n else none
  | _ => none

/-- The items of an array. -/
def items? : Json → Option (List Json)
  | .arr items => some items
  | _ => none

/-- The members of an object. -/
def members? : Json → Option (List (String × Json))
  | .obj members => some members
  | _ => none

/-- The value under a key of an object. -/
def member? (key : String) (v : Json) : Option Json :=
  v.members?.bind fun members => members.lookup key

/-- The text under a key of an object. -/
def memberText? (key : String) (v : Json) : Option String :=
  (v.member? key).bind text?

/-- Whether a value is a number written as an integer. -/
def isInteger : Json → Bool
  | .int _ => true
  | _ => false

end Json

/-! ## Members in key order -/

/-- The members of an object. -/
abbrev Members := List (String × Json)

namespace Members

/-- Set the value of a key, at the key's place in the order. -/
def put (key : String) (value : Json) : Members → Members
  | [] => [(key, value)]
  | (k, v) :: rest =>
    if key < k then (key, value) :: (k, v) :: rest
    else if key = k then (key, value) :: rest
    else (k, v) :: put key value rest

/-- Members in key order, each key with the last value it was given. -/
def ofList (members : List (String × Json)) : Members :=
  members.foldl (fun sorted member => put member.1 member.2 sorted) []

/-- Keys ascend strictly. -/
def Sorted (members : Members) : Prop :=
  members.Pairwise fun a b => a.1 < b.1

/-- Only the new key is added to those of the list. -/
theorem mem_keys_put {key : String} {value : Json} {ms : Members} {k : String}
    (h : k ∈ (put key value ms).map (·.1)) : k = key ∨ k ∈ ms.map (·.1) := by
  induction ms with
  | nil => simpa [put] using h
  | cons m ms ih =>
    obtain ⟨j, v⟩ := m
    simp only [put] at h
    split at h
    · simpa using h
    · split at h
      · simp only [List.map_cons, List.mem_cons] at h ⊢
        exact h.imp_right .inr
      · simp only [List.map_cons, List.mem_cons] at h ⊢
        rcases h with h | h
        · exact .inr (.inl h)
        · exact (ih h).imp_right .inr

/-- Setting a key keeps the order of keys. -/
theorem Sorted.put {key : String} {value : Json} {ms : Members} (h : ms.Sorted) :
    (Members.put key value ms).Sorted := by
  induction ms with
  | nil => simp [Members.put, Sorted]
  | cons m ms ih =>
    obtain ⟨k, v⟩ := m
    have htail : Sorted ms := (List.pairwise_cons.1 h).2
    have hhead : ∀ b ∈ ms, k < b.1 := (List.pairwise_cons.1 h).1
    simp only [Members.put]
    split
    · rename_i hlt
      refine List.pairwise_cons.2 ⟨fun b hb => ?_, h⟩
      rcases List.mem_cons.1 hb with rfl | hb
      · exact hlt
      · exact String.lt_trans hlt (hhead b hb)
    · split
      · rename_i heq
        subst heq
        exact List.pairwise_cons.2 ⟨hhead, htail⟩
      · rename_i hlt hne
        refine List.pairwise_cons.2 ⟨fun b hb => ?_, ih htail⟩
        have hmem : b.1 ∈ (Members.put key value ms).map (·.1) := List.mem_map_of_mem hb
        rcases mem_keys_put hmem with hk | hk
        · -- `key` is neither below nor equal to `k`
          rw [hk]
          exact String.not_le.1 fun hle => hne (String.le_antisymm hle (String.not_lt.1 hlt))
        · obtain ⟨c, hc, hcb⟩ := List.mem_map.1 hk
          exact hcb ▸ hhead c hc

/-- Any list of members comes out in key order. -/
theorem sorted_ofList (ms : List (String × Json)) : (ofList ms).Sorted := by
  have go : ∀ (ms : List (String × Json)) (acc : Members), acc.Sorted →
      Sorted (ms.foldl (fun sorted member => put member.1 member.2 sorted) acc) := by
    intro ms
    induction ms with
    | nil => exact fun _ h => h
    | cons m ms ih => exact fun acc h => ih _ h.put
  exact go ms [] .nil

/-- A key that was set is found with its value. -/
theorem lookup_put_self {key : String} {value : Json} {ms : Members} :
    (put key value ms).lookup key = some value := by
  induction ms with
  | nil => simp [put]
  | cons m ms ih =>
    obtain ⟨k, v⟩ := m
    simp only [put]
    split
    · simp
    · split
      · simp
      · rename_i hne
        have hk : (key == k) = false := beq_eq_false_iff_ne.2 hne
        simp [List.lookup_cons, hk, ih]

/-- The other keys keep their values. -/
theorem lookup_put_of_ne {key other : String} {value : Json} {ms : Members} (h : other ≠ key) :
    (put key value ms).lookup other = ms.lookup other := by
  have hk : (other == key) = false := beq_eq_false_iff_ne.2 h
  induction ms with
  | nil => simp [put, List.lookup_cons, hk]
  | cons m ms ih =>
    obtain ⟨k, v⟩ := m
    simp only [put]
    split
    · simp [List.lookup_cons, hk]
    · split
      · rename_i heq
        subst heq
        simp [List.lookup_cons, hk]
      · simp [List.lookup_cons, ih]

end Members

end ChainIndex
