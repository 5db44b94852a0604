import ChainIndex.Proofs.Numerals
import Mathlib.Algebra.Group.Nat.Defs

/-!
# String literals

The grammar of a JSON string: between two quotes stand characters as they are, characters behind a
backslash, and code units of four hexadecimal digits, where two halves of a surrogate pair make one
character. A text that begins with a quote is cut into the one token of a string if it is a literal
of that string, and not otherwise.
-/

namespace ChainIndex.Json

/-! ## The grammar -/

/-- A hexadecimal digit, of either case, with its value. -/
def HexDigit (c : Char) (n : Nat) : Prop :=
  n < 16 ∧ (c = n.digitChar ∨ c = n.digitChar.toUpper)

instance (c : Char) (n : Nat) : Decidable (HexDigit c n) :=
  inferInstanceAs (Decidable (_ ∧ _))

/-- Four hexadecimal digits with the number that they write. -/
inductive FourHex : List Char → Nat → Prop
  | digits {a b c d : Char} {i j k l : Nat} (ha : HexDigit a i) (hb : HexDigit b j)
    (hc : HexDigit c k) (hd : HexDigit d l) :
    FourHex [a, b, c, d] (i * 16 ^ 3 + j * 16 ^ 2 + k * 16 + l)

/-- The characters that stand behind a backslash, with those that they stand for. -/
def escapes : List (Char × Char) :=
  [('"', '"'), ('\\', '\\'), ('/', '/'), ('b', Char.ofNat 8), ('f', Char.ofNat 12), ('n', '\n'),
    ('r', '\r'), ('t', '\t')]

/-- A first half of a surrogate pair. -/
def IsHigh (u : Nat) : Prop := 0xd800 ≤ u ∧ u < 0xdc00

instance (u : Nat) : Decidable (IsHigh u) :=
  inferInstanceAs (Decidable (_ ∧ _))

/-- A second half of a surrogate pair. -/
def IsLow (u : Nat) : Prop := 0xdc00 ≤ u ∧ u < 0xe000

instance (u : Nat) : Decidable (IsLow u) :=
  inferInstanceAs (Decidable (_ ∧ _))

/-- What stands between the quotes of a literal, with the characters that it denotes. -/
inductive Denotes : List Char → List Char → Prop
  | nil : Denotes [] []
  | plain {c : Char} {cs s : List Char} (hquote : c ≠ '"') (hslash : c ≠ '\\')
    (hcontrol : 0x20 ≤ c.toNat) (rest : Denotes cs s) : Denotes (c :: cs) (c :: s)
  | escape {c d : Char} {cs s : List Char} (h : escapes.lookup c = some d) (rest : Denotes cs s) :
    Denotes ('\\' :: c :: cs) (d :: s)
  | unit {ds cs s : List Char} {u : Nat} (h : FourHex ds u) (hhigh : ¬IsHigh u) (hlow : ¬IsLow u)
    (rest : Denotes cs s) : Denotes ('\\' :: 'u' :: (ds ++ cs)) (Char.ofNat u :: s)
  | pair {ds es cs s : List Char} {u v : Nat} (hu : FourHex ds u) (hv : FourHex es v)
    (hhigh : IsHigh u) (hlow : IsLow v) (rest : Denotes cs s) :
    Denotes ('\\' :: 'u' :: (ds ++ '\\' :: 'u' :: (es ++ cs)))
      (Char.ofNat (0x10000 + (u - 0xd800) * 0x400 + (v - 0xdc00)) :: s)

/-- The literals of a string. -/
def Literal (cs : List Char) (s : String) : Prop :=
  ∃ body, cs = '"' :: body ++ ['"'] ∧ Denotes body s.toList

/-! ## Digits and escapes -/

theorem hexDigit_of_hexValue {c : Char} {n : Nat} (h : hexValue c = some n) : HexDigit c n := by
  have hall : ∀ k < 128, ∀ v ∈ hexValue (Char.ofNat k),
      v < 16 ∧ (Char.ofNat k = v.digitChar ∨ Char.ofNat k = v.digitChar.toUpper) := by decide
  have hascii : c.toNat < 128 := by
    unfold hexValue at h
    split at h
    · rename_i hdigit
      have hbounds : 48 ≤ c.toNat ∧ c.toNat ≤ 57 := by
        simpa [Char.isDigit, UInt32.le_iff_toNat_le] using hdigit
      omega
    split at h
    · rename_i hletter
      have hle : c.toNat ≤ 'f'.toNat := hletter.2
      exact Nat.lt_of_le_of_lt hle (by decide)
    split at h
    · rename_i hletter
      have hle : c.toNat ≤ 'F'.toNat := hletter.2
      exact Nat.lt_of_le_of_lt hle (by decide)
    · cases h
  have hc := hall c.toNat hascii
  rw [Char.ofNat_toNat] at hc
  exact hc n h

theorem hexValue_eq_some_iff {c : Char} {n : Nat} : hexValue c = some n ↔ HexDigit c n := by
  refine ⟨hexDigit_of_hexValue, ?_⟩
  have hall : ∀ n < 16, hexValue n.digitChar.toUpper = some n := by decide
  rintro ⟨hn, rfl | rfl⟩
  · exact hexValue_digitChar hn
  · exact hall n hn

/-- The character behind a backslash stands for the one of the list. -/
theorem unescape_eq (c : Char) : unescape c = (escapes.lookup c).map Char.toNat := by
  by_cases hc : c ∈ escapes.map (·.1)
  · have hall : (escapes.map (·.1)).all fun c =>
        unescape c == (escapes.lookup c).map Char.toNat := by decide
    exact beq_iff_eq.1 (List.all_eq_true.1 hall c hc)
  · have hnone : escapes.lookup c = none := by
      rw [List.lookup_eq_none_iff]
      intro entry hentry
      exact bne_iff_ne.2 fun heq => hc (heq ▸ List.mem_map_of_mem hentry)
    rw [hnone]
    simp only [escapes, List.map_cons, List.map_nil, List.mem_cons, List.not_mem_nil, not_or] at hc
    simp [unescape, hc]

/-! ## Code units -/

/-- What stands between the quotes of a literal, with its code units. -/
inductive Units : List Char → List Nat → Prop
  | nil : Units [] []
  | plain {c : Char} {cs : List Char} {us : List Nat} (hquote : c ≠ '"') (hslash : c ≠ '\\')
    (hcontrol : 0x20 ≤ c.toNat) (rest : Units cs us) : Units (c :: cs) (c.toNat :: us)
  | escape {c d : Char} {cs : List Char} {us : List Nat} (h : escapes.lookup c = some d)
    (rest : Units cs us) : Units ('\\' :: c :: cs) (d.toNat :: us)
  | hex {ds cs : List Char} {us : List Nat} {u : Nat} (h : FourHex ds u) (rest : Units cs us) :
    Units ('\\' :: 'u' :: (ds ++ cs)) (u :: us)

/-- No escape is the one of a code unit. -/
theorem ne_of_escape {c d : Char} (h : escapes.lookup c = some d) : c ≠ 'u' := by
  rintro rfl
  cases h

section

variable {done : List Nat} {cs : List Char} {ts : List Token}

/-- A digit is added to those that were read. -/
theorem scan_hexDigit {c : Char} {n : Nat} (h : HexDigit c n) (left value : Nat) :
    scan (.hex done left value) (c :: cs) =
      scan (if left ≤ 1 then .text ((value * 16 + n) :: done)
        else .hex done (left - 1) (value * 16 + n)) cs := by
  refine scan_cons_of_quiet _ ?_ cs
  rw [Mode.step, hexValue_eq_some_iff.2 h, Option.map_some]
  split <;> rfl

/-- Only a digit is. -/
theorem of_scan_hex {left value : Nat} (h : scan (.hex done left value) cs = some ts) :
    ∃ c n rest, cs = c :: rest ∧ HexDigit c n ∧
      scan (if left ≤ 1 then .text ((value * 16 + n) :: done)
        else .hex done (left - 1) (value * 16 + n)) rest = some ts := by
  cases cs with
  | nil => cases h
  | cons c cs =>
    cases hn : hexValue c with
    | none =>
      rw [scan_cons, Mode.step, hn] at h
      cases h
    | some n =>
      have hdigit := hexDigit_of_hexValue hn
      exact ⟨c, n, cs, rfl, hdigit, scan_hexDigit hdigit left value ▸ h⟩

/-- Four digits are taken for their number. -/
theorem scan_fourDigits {ds : List Char} {u : Nat} (h : FourHex ds u) :
    scan (.hex done 4 0) (ds ++ cs) = scan (.text (u :: done)) cs := by
  cases h with
  | @digits a b c d i j k l ha hb hc hd =>
    have hvalue : (((0 * 16 + i) * 16 + j) * 16 + k) * 16 + l =
        i * 16 ^ 3 + j * 16 ^ 2 + k * 16 + l := by omega
    show scan (.hex done 4 0) (a :: b :: c :: d :: cs) = _
    rw [scan_hexDigit ha, if_neg (by decide), scan_hexDigit hb, if_neg (by decide),
      scan_hexDigit hc, if_neg (by decide), scan_hexDigit hd, if_pos (by decide), hvalue]

/-- Nothing but four digits is taken for a number. -/
theorem of_scan_fourDigits (h : scan (.hex done 4 0) cs = some ts) :
    ∃ ds u rest, cs = ds ++ rest ∧ FourHex ds u ∧ scan (.text (u :: done)) rest = some ts := by
  obtain ⟨a, i, rest, rfl, ha, h⟩ := of_scan_hex h
  obtain ⟨b, j, rest, rfl, hb, h⟩ := of_scan_hex h
  obtain ⟨c, k, rest, rfl, hc, h⟩ := of_scan_hex h
  obtain ⟨d, l, rest, rfl, hd, h⟩ := of_scan_hex h
  have hvalue : (((0 * 16 + i) * 16 + j) * 16 + k) * 16 + l =
      i * 16 ^ 3 + j * 16 ^ 2 + k * 16 + l := by omega
  rw [if_pos (by decide), hvalue] at h
  exact ⟨[a, b, c, d], _, rest, rfl, .digits ha hb hc hd, h⟩

/-- The units of a literal are gathered. -/
theorem scan_units {body : List Char} {us : List Nat} (h : Units body us) :
    scan (.text done) (body ++ cs) = scan (.text (us.reverse ++ done)) cs := by
  induction h generalizing done with
  | nil => rfl
  | @plain c _ _ hquote hslash hcontrol _ ih =>
    rw [List.cons_append, scan_cons_of_quiet (.text (c.toNat :: done))
      (by simp [Mode.step, hquote, hslash, Nat.not_lt.2 hcontrol]), ih, List.reverse_cons,
      List.append_assoc, List.singleton_append]
  | @escape c d _ _ hescape _ ih =>
    rw [List.cons_append, List.cons_append, scan_escape (ne_of_escape hescape)
      (by rw [unescape_eq, hescape, Option.map_some]), ih, List.reverse_cons, List.append_assoc,
      List.singleton_append]
  | hex hfour _ ih =>
    rw [List.cons_append, List.cons_append, scan_cons_of_quiet (.escape done) rfl,
      scan_cons_of_quiet (.hex done 4 0) rfl, List.append_assoc, scan_fourDigits hfour, ih,
      List.reverse_cons, List.append_assoc, List.singleton_append]

/-- A scan inside of a string comes to its end behind the units of a literal and a quote. -/
theorem of_scan_text (h : scan (.text done) cs = some ts) :
    ∃ body us rest, cs = body ++ '"' :: rest ∧ Units body us := by
  -- a piece of a literal may have several characters, after which the scan is inside again
  induction hn : cs.length using Nat.strongRecOn generalizing done cs with
  | ind n ih =>
    subst hn
    have hinside : ∀ {done' : List Nat} {cs' : List Char},
        scan (.text done') cs' = some ts → cs'.length < cs.length →
        ∃ body us rest, cs' = body ++ '"' :: rest ∧ Units body us :=
      fun h' hlt => ih _ hlt h' rfl
    cases cs with
    | nil => cases h
    | cons c cs =>
      by_cases hquote : c = '"'
      · exact ⟨[], [], cs, by rw [hquote]; rfl, .nil⟩
      by_cases hslash : c = '\\'
      · subst hslash
        rw [scan_cons_of_quiet (.escape done) rfl] at h
        cases cs with
        | nil => cases h
        | cons c cs =>
          by_cases hu : c = 'u'
          · subst hu
            rw [scan_cons_of_quiet (.hex done 4 0) rfl] at h
            obtain ⟨ds, u, rest, rfl, hfour, h⟩ := of_scan_fourDigits h
            obtain ⟨body, us, rest, rfl, hbody⟩ := hinside h (by simp; omega)
            exact ⟨_, _, rest, by simp, .hex hfour hbody⟩
          · cases hd : escapes.lookup c with
            | none =>
              rw [scan_cons, Mode.step, if_neg hu, unescape_eq, hd] at h
              cases h
            | some d =>
              rw [scan_cons_of_quiet (.text (d.toNat :: done))
                (by simp [Mode.step, hu, unescape_eq, hd])] at h
              obtain ⟨body, us, rest, rfl, hbody⟩ := hinside h
                (by simp only [List.length_cons]; omega)
              exact ⟨_, _, rest, by simp, .escape hd hbody⟩
      · by_cases hcontrol : c.toNat < 32
        · rw [scan_cons, Mode.step, if_neg hquote, if_neg hslash, if_pos hcontrol] at h
          cases h
        · rw [scan_cons_of_quiet (.text (c.toNat :: done))
            (by simp [Mode.step, hquote, hslash, hcontrol])] at h
          obtain ⟨body, us, rest, rfl, hbody⟩ := hinside h (by simp)
          exact ⟨_, _, rest, by simp, .plain hquote hslash (Nat.not_lt.1 hcontrol) hbody⟩

/-- A string is scanned up to its closing quote, whether or not it has a value. -/
theorem scan_string {body : List Char} {us : List Nat} (h : Units body us) :
    scan .between ('"' :: (body ++ '"' :: cs)) =
      (scan .between cs).map (.text ((joinUnits us).map String.ofList) :: ·) := by
  rw [scan_cons_of_quiet (.text []) rfl, scan_units h, List.append_nil]
  exact scan_cons_of_token (by rw [Mode.step, if_pos rfl, List.reverse_reverse]) cs

end

/-! ## Characters -/

section

variable {u v : Nat} {us : List Nat}

theorem joinUnits_single (hhigh : ¬IsHigh u) (hlow : ¬IsLow u) (us : List Nat) :
    joinUnits (u :: us) = (joinUnits us).map (Char.ofNat u :: ·) := by
  conv_lhs => unfold joinUnits
  exact (if_neg hhigh).trans (if_neg hlow)

theorem joinUnits_pair (hhigh : IsHigh u) (hlow : IsLow v) (us : List Nat) :
    joinUnits (u :: v :: us) = (joinUnits us).map (joinSurrogates u v :: ·) := by
  conv_lhs => unfold joinUnits
  exact (if_pos hhigh).trans (if_pos hlow)

/-- A first half without a second half behind it has no value. -/
theorem joinUnits_of_isHigh (hhigh : IsHigh u) (hnext : ∀ v ∈ us.head?, ¬IsLow v) :
    joinUnits (u :: us) = none := by
  unfold joinUnits
  refine (if_pos hhigh).trans ?_
  cases us with
  | nil => rfl
  | cons v us => exact if_neg (hnext v rfl)

/-- A second half without a first half before it has no value. -/
theorem joinUnits_of_isLow (hlow : IsLow u) (us : List Nat) : joinUnits (u :: us) = none := by
  have hhigh : ¬IsHigh u := by
    unfold IsLow at hlow
    unfold IsHigh
    omega
  unfold joinUnits
  exact (if_neg hhigh).trans (if_pos hlow)

end

/-- A character is no half of a surrogate pair. -/
theorem not_surrogate (c : Char) : ¬IsHigh c.toNat ∧ ¬IsLow c.toNat := by
  have hvalid : c.toNat < 0xd800 ∨ 0xdfff < c.toNat := by
    rcases c.valid with h | h
    · exact .inl h
    · exact .inr h.1
  unfold IsHigh IsLow
  omega

theorem joinUnits_char (c : Char) (us : List Nat) :
    joinUnits (c.toNat :: us) = (joinUnits us).map (c :: ·) := by
  rw [joinUnits_single (not_surrogate c).1 (not_surrogate c).2, Char.ofNat_toNat]

/-- What a literal denotes has code units. -/
theorem Denotes.units {body s : List Char} (h : Denotes body s) :
    ∃ us, Units body us ∧ joinUnits us = some s := by
  induction h with
  | nil => exact ⟨[], .nil, rfl⟩
  | plain hquote hslash hcontrol _ ih =>
    obtain ⟨us, hus, hjoin⟩ := ih
    exact ⟨_, .plain hquote hslash hcontrol hus, by rw [joinUnits_char, hjoin, Option.map_some]⟩
  | escape hescape _ ih =>
    obtain ⟨us, hus, hjoin⟩ := ih
    exact ⟨_, .escape hescape hus, by rw [joinUnits_char, hjoin, Option.map_some]⟩
  | unit hfour hhigh hlow _ ih =>
    obtain ⟨us, hus, hjoin⟩ := ih
    exact ⟨_, .hex hfour hus, by rw [joinUnits_single hhigh hlow, hjoin, Option.map_some]⟩
  | pair hu hv hhigh hlow _ ih =>
    obtain ⟨us, hus, hjoin⟩ := ih
    exact ⟨_, .hex hu (.hex hv hus), by rw [joinUnits_pair hhigh hlow, hjoin]; rfl⟩

/-- Code units that can be joined are those of what the literal denotes. -/
theorem Units.denotes {body s : List Char} {us : List Nat} (h : Units body us)
    (hjoin : joinUnits us = some s) : Denotes body s := by
  -- a pair takes two units at once
  induction hn : us.length using Nat.strongRecOn generalizing body us s with
  | ind n ih =>
    subst hn
    have hchar : ∀ {c : Char} {us' : List Nat}, us = c.toNat :: us' →
        ∃ s', s = c :: s' ∧ joinUnits us' = some s' := by
      rintro c us' rfl
      rw [joinUnits_char] at hjoin
      obtain ⟨s', hs', rfl⟩ := Option.map_eq_some_iff.1 hjoin
      exact ⟨s', rfl, hs'⟩
    cases h with
    | nil =>
      cases hjoin
      exact .nil
    | plain hquote hslash hcontrol hrest =>
      obtain ⟨s', rfl, hs'⟩ := hchar rfl
      exact .plain hquote hslash hcontrol (ih _ (by simp) hrest hs' rfl)
    | escape hescape hrest =>
      obtain ⟨s', rfl, hs'⟩ := hchar rfl
      exact .escape hescape (ih _ (by simp) hrest hs' rfl)
    | @hex ds cs us u hfour hrest =>
      by_cases hlow : IsLow u
      · rw [joinUnits_of_isLow hlow] at hjoin
        cases hjoin
      by_cases hhigh : IsHigh u
      · -- only the escape of a second half can follow
        have hnext : ∃ v ∈ us.head?, IsLow v := by
          by_contra hnone
          rw [joinUnits_of_isHigh hhigh fun v hv hlow => hnone ⟨v, hv, hlow⟩] at hjoin
          cases hjoin
        obtain ⟨v, hv, hv'⟩ := hnext
        cases hrest with
        | nil => cases hv
        | plain | escape =>
          cases hv
          exact absurd hv' (not_surrogate _).2
        | hex hfour' hrest =>
          cases hv
          rw [joinUnits_pair hhigh hv'] at hjoin
          obtain ⟨s', hs', rfl⟩ := Option.map_eq_some_iff.1 hjoin
          have hless := ih _ (Nat.lt_succ_of_lt (Nat.lt_succ_self _)) hrest hs' rfl
          exact .pair hfour hfour' hhigh hv' hless
      · rw [joinUnits_single hhigh hlow] at hjoin
        obtain ⟨s', hs', rfl⟩ := Option.map_eq_some_iff.1 hjoin
        exact .unit hfour hhigh hlow (ih _ (by simp) hrest hs' rfl)

end ChainIndex.Json
