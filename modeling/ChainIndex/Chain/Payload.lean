import ChainIndex.Json.Text

/-!
# Payloads

The payload of an operation is an object: members in ascending order of their keys, each key once.
`put` sets a key, `putNew` sets it only if the payload has none.
-/

namespace ChainIndex

/-- The object that an operation carries. -/
structure Payload where
  members : Members
  sorted : members.Sorted

namespace Payload

/-- The payload without members. -/
def empty : Payload := ⟨[], .nil⟩

instance : Inhabited Payload := ⟨empty⟩

@[ext] theorem ext {p q : Payload} (h : p.members = q.members) : p = q := by
  cases p; cases q; simp_all

/-- The payload with these members, the last value of a key being the one that counts. -/
def ofMembers (members : List (String × Json)) : Payload :=
  ⟨Members.ofList members, Members.sorted_ofList members⟩

/-- The value of a key. -/
def get? (p : Payload) (key : String) : Option Json := p.members.lookup key

/-- The string under a key. -/
def text? (p : Payload) (key : String) : Option String := (p.get? key).bind Json.text?

/-- The keys in ascending order. -/
def keys (p : Payload) : List String := p.members.map (·.1)

/-- Set the value of a key. -/
def put (p : Payload) (key : String) (value : Json) : Payload :=
  ⟨Members.put key value p.members, p.sorted.put⟩

/-- Set the value of a key that has none. -/
def putNew (p : Payload) (key : String) (value : Json) : Payload :=
  if (p.get? key).isSome then p else p.put key value

/-- The compact text of the object. -/
def text (p : Payload) : String := (Json.obj p.members).text

@[simp] theorem get?_put_self (p : Payload) (key : String) (value : Json) :
    (p.put key value).get? key = some value :=
  Members.lookup_put_self

theorem get?_put_of_ne (p : Payload) {key other : String} (value : Json) (h : other ≠ key) :
    (p.put key value).get? other = p.get? other :=
  Members.lookup_put_of_ne h

theorem get?_putNew_of_ne (p : Payload) {key other : String} (value : Json) (h : other ≠ key) :
    (p.putNew key value).get? other = p.get? other := by
  unfold putNew
  split
  · rfl
  · exact p.get?_put_of_ne value h

/-- A key occurs once. -/
theorem keys_nodup (p : Payload) : p.keys.Nodup := by
  refine List.pairwise_map.2 (p.sorted.imp ?_)
  intro a b hab heq
  rw [heq] at hab
  exact String.lt_irrefl b.1 hab

end Payload

end ChainIndex
