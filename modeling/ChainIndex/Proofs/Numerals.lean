import ChainIndex.Chain.Amount
import ChainIndex.Proofs.TokenText
import Mathlib.Data.List.Induction

/-!
# Decimal numerals

A numeral has a sign, digits before the point and digits after it. In its proper form it has no
digit that could be left out and no sign where it stands for zero, so that its sign, its magnitude
and the number of its decimal places decide it. An amount that is written in full and an amount
with a point put between its digits are both proper, and hence the same.
-/

namespace ChainIndex

/-! ## Runs of digits -/

/-- Only digits. -/
def AllDigits (cs : List Char) : Prop := ∀ c ∈ cs, c.isDigit

theorem allDigits_toDigits (n : Nat) : AllDigits (Nat.toDigits 10 n) := fun _ hc =>
  Nat.isDigit_of_mem_toDigits (by decide) (by decide) hc

theorem allDigits_leftpad {cs : List Char} (h : AllDigits cs) (n : Nat) :
    AllDigits (cs.leftpad n '0') := by
  intro c hc
  rcases List.mem_append.1 hc with hc | hc
  · rw [List.eq_of_mem_replicate hc]
    rfl
  · exact h c hc

/-- A digit is the one of its value. -/
theorem eq_digitChar {c : Char} (h : c.isDigit) :
    c.toNat - '0'.toNat < 10 ∧ c = (c.toNat - '0'.toNat).digitChar := by
  have hbounds : 48 ≤ c.toNat ∧ c.toNat ≤ 57 := by
    simpa [Char.isDigit, UInt32.le_iff_toNat_le] using h
  have hvalue : c.toNat - '0'.toNat < 10 := by
    show c.toNat - 48 < 10
    omega
  refine ⟨hvalue, Char.toNat_inj.1 ?_⟩
  rw [Nat.toNat_digitChar_of_lt_ten hvalue]
  show c.toNat = 48 + (c.toNat - 48)
  omega

theorem ofDigitChars_concat (cs : List Char) (c : Char) :
    Nat.ofDigitChars 10 (cs ++ [c]) 0 =
      10 * Nat.ofDigitChars 10 cs 0 + (c.toNat - '0'.toNat) := by
  rw [Nat.ofDigitChars_append, Nat.ofDigitChars_cons, Nat.ofDigitChars_nil]

/-- Digits in front count for more than those behind. -/
theorem ofDigitChars_append_zero (cs ds : List Char) :
    Nat.ofDigitChars 10 (cs ++ ds) 0 =
      Nat.pow 10 ds.length * Nat.ofDigitChars 10 cs 0 + Nat.ofDigitChars 10 ds 0 := by
  rw [Nat.ofDigitChars_append]
  exact Nat.ofDigitChars_eq_ofDigitChars_zero

theorem ofDigitChars_leftpad (cs : List Char) (n : Nat) :
    Nat.ofDigitChars 10 (cs.leftpad n '0') 0 = Nat.ofDigitChars 10 cs 0 := by
  rw [List.leftpad, Nat.ofDigitChars_append, Nat.ofDigitChars_replicate_zero, Nat.mul_zero]

/-- So many digits only go so far. -/
theorem ofDigitChars_lt {cs : List Char} (h : AllDigits cs) :
    Nat.ofDigitChars 10 cs 0 < Nat.pow 10 cs.length := by
  induction cs using List.reverseRecOn with
  | nil => decide
  | append_singleton cs c ih =>
    have hinit := ih fun d hd => h d (List.mem_append_left _ hd)
    have hlast := (eq_digitChar (h c (by simp))).1
    rw [ofDigitChars_concat, List.length_append, List.length_singleton]
    show _ < Nat.pow 10 cs.length * 10
    omega

/-- As many digits for the same number are the same digits. -/
theorem eq_of_ofDigitChars {cs ds : List Char} (hcs : AllDigits cs) (hds : AllDigits ds)
    (hlength : cs.length = ds.length)
    (hvalue : Nat.ofDigitChars 10 cs 0 = Nat.ofDigitChars 10 ds 0) : cs = ds := by
  induction cs using List.reverseRecOn generalizing ds with
  | nil => exact (List.length_eq_zero_iff.1 hlength.symm).symm
  | append_singleton cs c ih =>
    rcases List.eq_nil_or_concat ds with rfl | ⟨ds, d, rfl⟩
    · simp at hlength
    rw [List.concat_eq_append] at hds hlength hvalue ⊢
    obtain ⟨hc, hchar⟩ := eq_digitChar (hcs c (by simp))
    obtain ⟨hd, hdchar⟩ := eq_digitChar (hds d (by simp))
    rw [ofDigitChars_concat, ofDigitChars_concat] at hvalue
    have hinit : cs = ds := by
      refine ih (fun e he => hcs e (List.mem_append_left _ he))
        (fun e he => hds e (List.mem_append_left _ he)) (by simpa using hlength) ?_
      omega
    have hlast : c = d := by
      rw [hchar, hdchar]
      congr 1
      omega
    rw [hinit, hlast]

/-- The first of some digits is a zero only if it is the only one. -/
def NoLeadingZero (cs : List Char) : Prop := cs.head? = some '0' → cs = ['0']

theorem noLeadingZero_toDigits (n : Nat) : NoLeadingZero (Nat.toDigits 10 n) := by
  intro hzero
  rcases Nat.eq_zero_or_pos n with rfl | hn
  · exact Nat.toDigits_zero 10
  · exact absurd hzero (Json.digits_head_ne_zero hn)

/-- Where digits are filled up to one more than the places after the point, the digits before the
point have no zero that can be left out. -/
theorem noLeadingZero_take_leftpad (n places : Nat) :
    NoLeadingZero (((Nat.toDigits 10 n).leftpad (places + 1) '0').take
      (((Nat.toDigits 10 n).leftpad (places + 1) '0').length - places)) := by
  have hlength : ((Nat.toDigits 10 n).leftpad (places + 1) '0').length =
      max (places + 1) (Nat.toDigits 10 n).length := List.length_leftpad
  intro hzero
  by_cases hmany : places + 1 < (Nat.toDigits 10 n).length
  · -- nothing was filled up, and zero does not have so many digits
    have hsame : (Nat.toDigits 10 n).leftpad (places + 1) '0' = Nat.toDigits 10 n := by
      show List.replicate _ _ ++ _ = _
      rw [Nat.sub_eq_zero_of_le (by omega), List.replicate_zero, List.nil_append]
    rw [List.head?_take, if_neg (by omega), hsame] at hzero
    have hone := congrArg List.length (noLeadingZero_toDigits n hzero)
    rw [List.length_singleton] at hone
    omega
  · -- one digit stands before the point
    have hone : (((Nat.toDigits 10 n).leftpad (places + 1) '0').take
        (((Nat.toDigits 10 n).leftpad (places + 1) '0').length - places)).length = 1 := by
      rw [List.length_take]
      omega
    obtain ⟨c, hc⟩ := List.length_eq_one_iff.1 hone
    rw [hc] at hzero ⊢
    exact congrArg (fun c => [c]) (Option.some.inj hzero)

/-- Digits of which none can be left out are the digits of the number that they write. -/
theorem toDigits_ofDigitChars {cs : List Char} (h : AllDigits cs) (hne : cs ≠ [])
    (hzero : NoLeadingZero cs) : Nat.toDigits 10 (Nat.ofDigitChars 10 cs 0) = cs := by
  induction cs using List.reverseRecOn with
  | nil => exact absurd rfl hne
  | append_singleton cs c ih =>
    obtain ⟨hc, hchar⟩ := eq_digitChar (h c (by simp))
    rw [ofDigitChars_concat]
    cases cs with
    | nil =>
      rw [Nat.ofDigitChars_nil, Nat.mul_zero, Nat.zero_add, Nat.toDigits_of_lt_base hc, ← hchar]
      rfl
    | cons first rest =>
      -- the first digit is none of zero, so that the digits before the last write something
      have hfirst : first ≠ '0' := by
        rintro rfl
        have hone := hzero rfl
        simp at hone
      have hinit := ih (fun d hd => h d (List.mem_append_left _ hd)) (List.cons_ne_nil _ _)
        fun hhead => absurd (Option.some.inj hhead) hfirst
      have hpos : 0 < Nat.ofDigitChars 10 (first :: rest) 0 := by
        refine Nat.pos_of_ne_zero fun hnone => hfirst ?_
        rw [hnone, Nat.toDigits_zero] at hinit
        exact (List.cons.inj hinit).1.symm
      rw [← Nat.toDigits_append_toDigits (by decide) hpos hc, hinit, Nat.toDigits_of_lt_base hc,
        ← hchar]

/-! ## Numerals -/

/-- A decimal numeral. -/
structure Numeral where
  negative : Bool
  /-- The digits before the point. -/
  whole : List Char
  /-- The digits after the point. -/
  fraction : List Char

namespace Numeral

variable {n n' : Numeral} {places : Nat}

/-- The text of a numeral, with a point if there is anything after it. -/
def text (n : Numeral) : String :=
  String.ofList ((if n.negative then ['-'] else []) ++ n.whole ++
    if n.fraction = [] then [] else '.' :: n.fraction)

/-- The number that all digits write, without the point. -/
def magnitude (n : Numeral) : Nat := Nat.ofDigitChars 10 (n.whole ++ n.fraction) 0

/-- The form in which a numeral with some decimal places is written. -/
structure Proper (n : Numeral) (places : Nat) : Prop where
  whole : AllDigits n.whole
  some : n.whole ≠ []
  leading : NoLeadingZero n.whole
  fraction : AllDigits n.fraction
  places : n.fraction.length = places
  /-- Zero has no sign. -/
  sign : n.negative → n.magnitude ≠ 0

/-- The digits before the point write the quotient, those after it the remainder. -/
theorem Proper.parts (h : n.Proper places) :
    Nat.ofDigitChars 10 n.whole 0 = n.magnitude / Nat.pow 10 places ∧
      Nat.ofDigitChars 10 n.fraction 0 = n.magnitude % Nat.pow 10 places := by
  have hsmall : Nat.ofDigitChars 10 n.fraction 0 < Nat.pow 10 places :=
    h.places ▸ ofDigitChars_lt h.fraction
  have hpos : 0 < Nat.pow 10 places := Nat.pow_pos (by decide)
  rw [magnitude, ofDigitChars_append_zero, h.places]
  constructor
  · rw [Nat.mul_add_div hpos, Nat.div_eq_of_lt hsmall, Nat.add_zero]
  · rw [Nat.mul_add_mod, Nat.mod_eq_of_lt hsmall]

/-- Sign, magnitude and decimal places decide a proper numeral. -/
theorem Proper.unique (h : n.Proper places) (h' : n'.Proper places)
    (hnegative : n.negative = n'.negative) (hmagnitude : n.magnitude = n'.magnitude) : n = n' := by
  obtain ⟨hquotient, hremainder⟩ := h.parts
  obtain ⟨hquotient', hremainder'⟩ := h'.parts
  have hwhole : n.whole = n'.whole := by
    rw [← toDigits_ofDigitChars h.whole h.some h.leading,
      ← toDigits_ofDigitChars h'.whole h'.some h'.leading, hquotient, hquotient', hmagnitude]
  have hfraction : n.fraction = n'.fraction :=
    eq_of_ofDigitChars h.fraction h'.fraction (h.places.trans h'.places.symm)
      (by rw [hremainder, hremainder', hmagnitude])
  cases n
  cases n'
  simp_all

/-- There is nothing after the point if there are no decimal places. -/
theorem Proper.fraction_eq_nil (h : n.Proper places) : n.fraction = [] ↔ places = 0 := by
  rw [← h.places]
  exact List.length_eq_zero_iff.symm

/-- The digits after the point, with the point, are as many for as many places. -/
theorem Proper.length_pointed (h : n.Proper places) :
    (if n.fraction = [] then [] else '.' :: n.fraction).length =
      if places = 0 then 0 else places + 1 := by
  simp only [h.fraction_eq_nil]
  split
  · rfl
  · rw [List.length_cons, h.places]

/-- What precedes the point tells the sign. -/
theorem Proper.signed_unique (h : n.Proper places) (h' : n'.Proper places)
    (hsame : (if n.negative then ['-'] else []) ++ n.whole =
      (if n'.negative then ['-'] else []) ++ n'.whole) :
    n.negative = n'.negative ∧ n.whole = n'.whole := by
  have hunsigned : ∀ {cs ds : List Char}, AllDigits cs → cs ≠ '-' :: ds := by
    rintro _ ds hcs rfl
    exact absurd (hcs '-' List.mem_cons_self) (by decide)
  cases hnegative : n.negative <;> cases hnegative' : n'.negative <;>
    simp only [hnegative, hnegative', if_true, if_false, Bool.false_eq_true, List.nil_append,
      List.singleton_append] at hsame
  · exact ⟨rfl, hsame⟩
  · exact absurd hsame (hunsigned h.whole)
  · exact absurd hsame.symm (hunsigned h'.whole)
  · exact ⟨rfl, (List.cons.inj hsame).2⟩

/-- Proper numerals with as many places have different texts. -/
theorem Proper.text_unique (h : n.Proper places) (h' : n'.Proper places)
    (htext : n.text = n'.text) : n = n' := by
  obtain ⟨hsigned, hpointed⟩ :=
    List.append_inj' (String.ofList_injective htext) (h.length_pointed.trans h'.length_pointed.symm)
  obtain ⟨hnegative, hwhole⟩ := h.signed_unique h' hsigned
  have hfraction : n.fraction = n'.fraction := by
    have hpadded : n.whole ++ n.fraction = n.whole ++ n'.fraction := by
      split at hpointed <;> split at hpointed <;> simp_all
    exact List.append_cancel_left hpadded
  cases n
  cases n'
  simp_all

/-! ## Amounts as numerals -/

/-- A text is the proper numeral of `raw / 10 ^ places`. -/
def Writes (text : String) (raw : Int) (places : Nat) : Prop :=
  ∃ n : Numeral, n.Proper places ∧ n.negative = decide (raw < 0) ∧ n.magnitude = raw.natAbs ∧
    n.text = text

variable {raw raw' : Int} {text text' : String}

/-- There is no other such text. -/
theorem Writes.unique (h : Writes text raw places) (h' : Writes text' raw places) :
    text = text' := by
  obtain ⟨n, hn, hnegative, hmagnitude, rfl⟩ := h
  obtain ⟨n', hn', hnegative', hmagnitude', rfl⟩ := h'
  rw [hn.unique hn' (hnegative.trans hnegative'.symm) (hmagnitude.trans hmagnitude'.symm)]

/-- The text of no other amount is the same. -/
theorem Writes.raw_unique (h : Writes text raw places) (h' : Writes text raw' places) :
    raw = raw' := by
  obtain ⟨n, hn, hnegative, hmagnitude, rfl⟩ := h
  obtain ⟨n', hn', hnegative', hmagnitude', htext⟩ := h'
  obtain rfl := hn.text_unique hn' htext.symm
  have hsign : raw < 0 ↔ raw' < 0 := decide_eq_decide.1 (hnegative.symm.trans hnegative')
  omega

/-- Digits that write an amount, with its sign before them and a point between them. -/
theorem writes_of_digits {whole fraction : List Char} (hwhole : AllDigits whole)
    (hsome : whole ≠ []) (hleading : NoLeadingZero whole) (hfraction : AllDigits fraction)
    (hplaces : fraction.length = places)
    (hvalue : Nat.ofDigitChars 10 (whole ++ fraction) 0 = raw.natAbs) :
    Writes (String.ofList ((if raw < 0 then ['-'] else []) ++ whole ++
      if places = 0 then [] else '.' :: fraction)) raw places := by
  have hproper : Proper ⟨decide (raw < 0), whole, fraction⟩ places := by
    refine ⟨hwhole, hsome, hleading, hfraction, hplaces, fun hnegative hzero => ?_⟩
    have hnegative : raw < 0 := of_decide_eq_true hnegative
    have hzero : raw.natAbs = 0 := hvalue ▸ hzero
    omega
  refine ⟨_, hproper, rfl, hvalue, ?_⟩
  simp only [text, hproper.fraction_eq_nil, decide_eq_true_eq]

/-- An amount that is written in full. -/
theorem writes_longhand (raw : Int) (places : Nat) :
    Writes (FixedPoint.longhand raw places) raw places := by
  have hpos : 0 < Nat.pow 10 places := Nat.pow_pos (by decide)
  have hwhole := allDigits_toDigits (raw.natAbs / Nat.pow 10 places)
  have hleading := noLeadingZero_toDigits (raw.natAbs / Nat.pow 10 places)
  by_cases hplaces : places = 0
  · subst hplaces
    have hnone : AllDigits [] := nofun
    have hvalue : Nat.ofDigitChars 10 (Nat.toDigits 10 (raw.natAbs / Nat.pow 10 0) ++ []) 0 =
        raw.natAbs := by
      rw [List.append_nil, Nat.ofDigitChars_ten_toDigits]
      exact Nat.div_one _
    have hwrites := writes_of_digits hwhole Nat.toDigits_ne_nil hleading hnone rfl hvalue
    exact hwrites
  have hlength : ((Nat.toDigits 10 (raw.natAbs % Nat.pow 10 places)).leftpad places '0').length =
      places := by
    rw [List.length_leftpad, Nat.max_eq_left]
    exact (Nat.length_toDigits_le_iff (by decide) (by omega)).2 (Nat.mod_lt _ hpos)
  have hvalue : Nat.ofDigitChars 10 (Nat.toDigits 10 (raw.natAbs / Nat.pow 10 places) ++
      (Nat.toDigits 10 (raw.natAbs % Nat.pow 10 places)).leftpad places '0') 0 = raw.natAbs := by
    rw [ofDigitChars_append_zero, hlength, ofDigitChars_leftpad, Nat.ofDigitChars_ten_toDigits,
      Nat.ofDigitChars_ten_toDigits, Nat.div_add_mod]
  exact writes_of_digits hwhole Nat.toDigits_ne_nil hleading
    (allDigits_leftpad (allDigits_toDigits _) _) hlength hvalue

/-- An amount with a point put between its digits. -/
theorem writes_shiftPoint (raw : Int) (places : Nat) :
    Writes (Amount.shiftPoint raw places) raw places := by
  have hdigits := allDigits_toDigits raw.natAbs
  have hsigned : Amount.shiftPoint raw places =
      String.ofList ((if raw < 0 then ['-'] else []) ++ Amount.placed raw.natAbs places) := by
    unfold Amount.shiftPoint
    split <;> rfl
  rw [hsigned]
  by_cases hplaces : places = 0
  · subst hplaces
    have hnone : AllDigits [] := nofun
    have hvalue : Nat.ofDigitChars 10 (Nat.toDigits 10 raw.natAbs ++ []) 0 = raw.natAbs := by simp
    have hwrites := writes_of_digits hdigits Nat.toDigits_ne_nil (noLeadingZero_toDigits _) hnone
      rfl hvalue
    simpa [Amount.placed] using hwrites
  -- the digits are filled up in front
  let padded := (Nat.toDigits 10 raw.natAbs).leftpad (places + 1) '0'
  have hpadded : AllDigits padded := allDigits_leftpad hdigits _
  have hlength : padded.length = max (places + 1) (Nat.toDigits 10 raw.natAbs).length :=
    List.length_leftpad
  let whole := padded.take (padded.length - places)
  let fraction := padded.drop (padded.length - places)
  have hwhole : whole.length = padded.length - places := by
    rw [List.length_take]
    omega
  have hsome : whole ≠ [] := by
    rw [← List.length_pos_iff, hwhole]
    omega
  have hleading : NoLeadingZero whole := noLeadingZero_take_leftpad raw.natAbs places
  have hfraction : fraction.length = places := by
    rw [List.length_drop]
    omega
  have hvalue : Nat.ofDigitChars 10 (whole ++ fraction) 0 = raw.natAbs := by
    rw [List.take_append_drop, ofDigitChars_leftpad, Nat.ofDigitChars_ten_toDigits]
  have hwrites := writes_of_digits
    (fun c hc => hpadded c (List.mem_of_mem_take hc)) hsome hleading
    (fun c hc => hpadded c (List.mem_of_mem_drop hc)) hfraction hvalue
  rw [if_neg hplaces, List.append_assoc] at hwrites
  rw [Amount.placed, if_neg hplaces]
  exact hwrites

end Numeral

/-! ## Amounts with decimal places -/

/-- Whether or not a library has room for an amount, it is shown by its proper numeral. -/
theorem Amount.scaleWith_writes {lib : FixedPoint} (hlib : lib.Faithful) (raw : Int)
    (places : Nat) : Numeral.Writes (scaleWith lib raw (some places)) raw places := by
  simp only [scaleWith]
  split
  · rename_i number hnumber
    rw [hlib.writes hnumber]
    exact Numeral.writes_longhand raw places
  · exact Numeral.writes_shiftPoint raw places

/-- An amount without a precision is shown like one without decimal places. -/
theorem Amount.scaleWith_none_writes (lib : FixedPoint) (raw : Int) :
    Numeral.Writes (scaleWith lib raw none) raw 0 :=
  Numeral.writes_shiftPoint raw 0

end ChainIndex
