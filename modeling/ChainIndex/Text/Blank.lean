/-!
# Blank characters

The characters that trimming removes: the `White_Space` property of Unicode. The module holds the
class, `trim`, and what trimming leaves behind.
-/

namespace ChainIndex.Text

/-- A character with the `White_Space` property. -/
def isBlank (c : Char) : Bool :=
  let n := c.toNat
  (0x9 ≤ n && n ≤ 0xd) || n == 0x20 || n == 0x85 || n == 0xa0 || n == 0x1680 ||
    (0x2000 ≤ n && n ≤ 0x200a) || n == 0x2028 || n == 0x2029 || n == 0x202f || n == 0x205f ||
    n == 0x3000

/-- A list of characters without the blanks at its two ends. -/
def trimChars (cs : List Char) : List Char :=
  ((cs.dropWhile isBlank).reverse.dropWhile isBlank).reverse

/-- A text without the blanks at its two ends. -/
def trim (s : String) : String :=
  String.ofList (trimChars s.toList)

/-- The blanks in front of a text are dropped one and all. -/
theorem trimChars_append_of_blank {bs cs : List Char} (h : ∀ b ∈ bs, isBlank b = true) :
    trimChars (bs ++ cs) = trimChars cs := by
  induction bs with
  | nil => rfl
  | cons b bs ih =>
    have hb : isBlank b = true := h b (by simp)
    have hrest := ih fun x hx => h x (by simp [hx])
    simpa [trimChars, List.dropWhile_cons, hb] using hrest

/-- Nothing is dropped from a list that starts and ends with other characters. -/
theorem trimChars_eq_self {cs : List Char} (hfirst : ∀ c ∈ cs.head?, isBlank c = false)
    (hlast : ∀ c ∈ cs.getLast?, isBlank c = false) : trimChars cs = cs := by
  have drop : ∀ {xs : List Char}, (∀ c ∈ xs.head?, isBlank c = false) →
      xs.dropWhile isBlank = xs := by
    intro xs hx
    cases xs with
    | nil => rfl
    | cons x xs => simp [hx x (by simp)]
  rw [trimChars, drop hfirst, drop (by simpa [List.head?_reverse] using hlast),
    List.reverse_reverse]

end ChainIndex.Text
