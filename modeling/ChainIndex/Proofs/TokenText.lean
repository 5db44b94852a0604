import ChainIndex.Json.Text
import Mathlib.Data.List.Basic
import Mathlib.Data.List.TakeWhile

/-!
# Tokens read back from their text

Written tokens are cut from their text again: a string whatever characters it holds, an integer that
a word of 64 bits holds, and the words and brackets. Two tokens that are both words or numbers must
not stand side by side, which no JSON value makes them do.
-/

namespace ChainIndex.Json

/-! ## One character at a time -/

/-- The tokens that a character completes come before those that follow. -/
theorem scan_cons (mode : Mode) (c : Char) (cs : List Char) :
    scan mode (c :: cs) = (mode.step c).bind fun made => (scan made.2 cs).map (made.1 ++ ·) := by
  rw [scan]
  cases mode.step c with
  | none => rfl
  | some made =>
    rw [Option.bind_some, Option.map_eq_bind]
    rfl

/-- A character that completes no token only moves the scan on. -/
theorem scan_cons_of_quiet {mode : Mode} (next : Mode) {c : Char}
    (h : mode.step c = some ([], next)) (cs : List Char) : scan mode (c :: cs) = scan next cs := by
  rw [scan_cons, h]
  exact Option.map_id'

/-- A character that completes a token puts it before those that follow. -/
theorem scan_cons_of_token {mode next : Mode} {c : Char} {t : Token}
    (h : mode.step c = some ([t], next)) (cs : List Char) :
    scan mode (c :: cs) = (scan next cs).map (t :: ·) := by
  rw [scan_cons, h]
  rfl

/-! ## Strings -/

/-- The value of a digit of a base up to sixteen. -/
theorem hexValue_digitChar {n : Nat} (h : n < 16) : hexValue n.digitChar = some n := by
  have hall : ∀ n < 16, hexValue n.digitChar = some n := by decide
  exact hall n h

/-- A control character has two digits after two zeros. -/
theorem fourHex_of_lt {n : Nat} (h : n < 32) :
    fourHex n = ['0', '0', (n / 16).digitChar, (n % 16).digitChar] := by
  have hall : ∀ n < 32, fourHex n = ['0', '0', (n / 16).digitChar, (n % 16).digitChar] := by decide
  exact hall n h

/-- The four digits of a control character stand for it. -/
theorem scan_fourHex {n : Nat} (h : n < 32) (done : List Nat) (cs : List Char) :
    scan (.hex done 4 0) (fourHex n ++ cs) = scan (.text (n :: done)) cs := by
  have hhigh := hexValue_digitChar (n := n / 16) (by omega)
  have hlow := hexValue_digitChar (n := n % 16) (by omega)
  have hsum : n / 16 * 16 + n % 16 = n := by omega
  rw [fourHex_of_lt h]
  show scan _ ('0' :: '0' :: _ :: _ :: cs) = _
  rw [scan_cons_of_quiet (.hex done 3 0) rfl, scan_cons_of_quiet (.hex done 2 0) rfl,
    scan_cons_of_quiet (.hex done 1 (n / 16)) (by simp [Mode.step, hhigh]),
    scan_cons_of_quiet (.text (n :: done)) (by simp [Mode.step, hlow, hsum])]

/-- The character after a backslash stands for another. -/
theorem scan_escape {c : Char} {u : Nat} (hc : c ≠ 'u') (h : unescape c = some u) (done : List Nat)
    (cs : List Char) : scan (.text done) ('\\' :: c :: cs) = scan (.text (u :: done)) cs := by
  rw [scan_cons_of_quiet (.escape done) rfl,
    scan_cons_of_quiet (.text (u :: done)) (by simp [Mode.step, hc, h])]

/-- A written character is read as itself. -/
theorem scan_escapeChar (c : Char) (done : List Nat) (cs : List Char) :
    scan (.text done) (escapeChar c ++ cs) = scan (.text (c.toNat :: done)) cs := by
  unfold escapeChar
  by_cases hquote : c = '"'
  · subst hquote
    exact scan_escape (by decide) rfl done cs
  rw [if_neg hquote]
  by_cases hslash : c = '\\'
  · subst hslash
    exact scan_escape (by decide) rfl done cs
  rw [if_neg hslash]
  by_cases hback : c.toNat = 8
  · rw [if_pos hback, hback]
    exact scan_escape (by decide) rfl done cs
  rw [if_neg hback]
  by_cases htab : c.toNat = 9
  · rw [if_pos htab, htab]
    exact scan_escape (by decide) rfl done cs
  rw [if_neg htab]
  by_cases hline : c.toNat = 10
  · rw [if_pos hline, hline]
    exact scan_escape (by decide) rfl done cs
  rw [if_neg hline]
  by_cases hpage : c.toNat = 12
  · rw [if_pos hpage, hpage]
    exact scan_escape (by decide) rfl done cs
  rw [if_neg hpage]
  by_cases hreturn : c.toNat = 13
  · rw [if_pos hreturn, hreturn]
    exact scan_escape (by decide) rfl done cs
  rw [if_neg hreturn]
  by_cases hcontrol : c.toNat < 32
  · rw [if_pos hcontrol]
    show scan _ ('\\' :: 'u' :: (fourHex c.toNat ++ cs)) = _
    rw [scan_cons_of_quiet (.escape done) rfl,
      scan_cons_of_quiet (.hex done 4 0) rfl, scan_fourHex hcontrol]
  · rw [if_neg hcontrol]
    exact scan_cons_of_quiet _ (by simp [Mode.step, hquote, hslash, hcontrol]) cs

/-- Written characters are read one after the other. -/
theorem scan_escapeChars (l : List Char) (done : List Nat) (cs : List Char) :
    scan (.text done) (l.flatMap escapeChar ++ cs) =
      scan (.text ((l.map Char.toNat).reverse ++ done)) cs := by
  induction l generalizing done with
  | nil => rfl
  | cons c l ih =>
    rw [List.flatMap_cons, List.append_assoc, scan_escapeChar, ih, List.map_cons,
      List.reverse_cons, List.append_assoc]
    rfl

/-- A character is no half of a surrogate pair. -/
theorem joinUnits_toNat (l : List Char) : joinUnits (l.map Char.toNat) = some l := by
  induction l with
  | nil => rfl
  | cons c l ih =>
    have hvalid : c.toNat < 0xd800 ∨ 0xdfff < c.toNat := by
      rcases c.valid with h | h
      · exact .inl h
      · exact .inr h.1
    rw [List.map_cons]
    unfold joinUnits
    rw [if_neg (by omega), if_neg (by omega), ih, Char.ofNat_toNat]
    rfl

/-- A written string is read back, with whatever follows it. -/
theorem scan_textChars (s : String) (cs : List Char) :
    scan .between (textChars s ++ cs) = (scan .between cs).map (.text (some s) :: ·) := by
  have hvalue : (joinUnits ((s.toList.map Char.toNat).reverse ++ []).reverse).map String.ofList =
      some s := by
    rw [List.append_nil, List.reverse_reverse, joinUnits_toNat, Option.map_some,
      String.ofList_toList]
  show scan .between ('"' :: (s.toList.flatMap escapeChar ++ ['"'] ++ cs)) = _
  rw [scan_cons_of_quiet (.text []) rfl, List.append_assoc, scan_escapeChars]
  exact scan_cons_of_token (by rw [Mode.step, if_pos rfl, hvalue]) cs

/-! ## Numbers -/

section

variable {n : Nat}

/-- No digits stand for a number but its own, and the first of them is a zero for zero alone. -/
theorem digits_head_ne_zero (hn : 0 < n) : (Nat.toDigits 10 n).head? ≠ some '0' := by
  induction n using Nat.strongRecOn with
  | ind n ih =>
    by_cases hsmall : n < 10
    · have hall : ∀ n < 10, 0 < n → n.digitChar ≠ '0' := by decide
      rw [Nat.toDigits_of_lt_base hsmall]
      simpa using hall n hsmall hn
    · rw [Nat.toDigits_of_base_le (by decide) (by omega),
        List.head?_append_of_ne_nil _ Nat.toDigits_ne_nil]
      exact ih (n / 10) (by omega) (by omega)

/-- The digits of a number are not refused for a leading zero. -/
theorem leadingZero_digits :
    ((Nat.toDigits 10 n).isEmpty ||
      ((Nat.toDigits 10 n).length > 1 && (Nat.toDigits 10 n).head? == some '0')) = false := by
  have hne : (Nat.toDigits 10 n).isEmpty = false := by
    rw [List.isEmpty_eq_false_iff]
    exact Nat.toDigits_ne_nil
  rw [hne, Bool.false_or]
  by_cases hn : 0 < n
  · rw [beq_eq_false_iff_ne.2 (digits_head_ne_zero hn), Bool.and_false]
  · rw [show n = 0 by omega, Nat.toDigits_zero]
    rfl

/-- A number is read from its digits. -/
theorem readMagnitude_digits (negative : Bool) :
    readMagnitude negative (Nat.toDigits 10 n) =
      some (readWhole negative (Nat.toDigits 10 n)) := by
  have hdigits : ∀ c ∈ Nat.toDigits 10 n, c.isDigit := fun c hc =>
    Nat.isDigit_of_mem_toDigits (by decide) (by decide) hc
  have htake : (Nat.toDigits 10 n).takeWhile Char.isDigit = Nat.toDigits 10 n :=
    List.takeWhile_eq_self_iff.2 hdigits
  have hdrop : (Nat.toDigits 10 n).dropWhile Char.isDigit = [] :=
    List.dropWhile_eq_nil_iff.2 hdigits
  simp only [readMagnitude, htake, hdrop, leadingZero_digits, Bool.false_eq_true, if_false]

end

/-- A run of digits is none of the three words and has no sign. -/
theorem readWord_of_isDigit {c : Char} {cs : List Char} (h : c.isDigit) :
    readWord (c :: cs) = readMagnitude false (c :: cs) := by
  unfold readWord
  split
  all_goals first | rfl | (rename_i heq; cases heq; exact absurd h (by decide))

/-- An integer is read from the characters it is written with. -/
theorem readWord_intChars {n : Int} (hlow : int64Min ≤ n) (hhigh : n ≤ word64Max) :
    readWord (intChars n) = some (.int n) := by
  unfold int64Min at hlow
  unfold intChars
  split
  · rename_i hneg
    have habs : -(n.natAbs : Int) = n := by omega
    show readMagnitude true (Nat.toDigits 10 n.natAbs) = _
    rw [readMagnitude_digits, readWhole, Nat.ofDigitChars_ten_toDigits, if_pos rfl,
      if_pos ⟨by omega, by unfold int64Min; omega⟩, habs]
  · rename_i hnat
    have habs : (n.natAbs : Int) = n := by omega
    obtain ⟨c, cs, hdigits⟩ :=
      List.exists_cons_of_ne_nil (Nat.toDigits_ne_nil (n := n.natAbs) (b := 10))
    have hc : c.isDigit :=
      Nat.isDigit_of_mem_toDigits (b := 10) (n := n.natAbs) (by decide) (by decide)
        (by simp [hdigits])
    rw [hdigits, readWord_of_isDigit hc, ← hdigits, readMagnitude_digits, readWhole,
      Nat.ofDigitChars_ten_toDigits, if_neg (by decide), if_pos (by omega), habs]

/-! ## Words -/

/-- What ends a word: the end of the text, or a character that is in no word. -/
def Ends (cs : List Char) : Prop := ∀ c ∈ cs.head?, isWordChar c = false

/-- A word goes on to the first character that is in none. -/
theorem scan_word {t : Token} {word : List Char} (done : List Char)
    (hword : ∀ c ∈ word, isWordChar c) (hread : readWord (done.reverse ++ word) = some t)
    {cs : List Char} (hends : Ends cs) :
    scan (.word done) (word ++ cs) = (scan .between cs).map (t :: ·) := by
  induction word generalizing done with
  | nil =>
    rw [List.append_nil] at hread
    cases cs with
    | nil =>
      show (readWord done.reverse).map ([·]) = _
      rw [hread]
      rfl
    | cons c cs =>
      have hc : ¬isWordChar c := by simp [hends c rfl]
      have hstep : (Mode.word done).step c = (start c).map fun made => (t :: made.1, made.2) := by
        rw [Mode.step, if_neg hc, hread]
        cases start c <;> rfl
      show scan (.word done) (c :: cs) = _
      rw [scan_cons, scan_cons, hstep, Mode.step]
      cases start c with
      | none => rfl
      | some made =>
        show (scan made.2 cs).map _ = ((scan made.2 cs).map _).map _
        rw [Option.map_map]
        rfl
  | cons c word ih =>
    have hc : isWordChar c := hword c (by simp)
    rw [List.cons_append, scan_cons_of_quiet (.word (c :: done)) (by simp [Mode.step, hc])]
    exact ih (c :: done) (fun d hd => hword d (by simp [hd])) (by simpa using hread)

/-- A character of words that is no digit stands for no other token. -/
theorem start_of_isWordChar {c : Char} (h : isWordChar c) : start c = some ([], .word [c]) := by
  have hapart : ∀ d : Char, isWordChar d = false → c ≠ d := by
    rintro d hd rfl
    rw [h] at hd
    cases hd
  have hspace : isSpace c = false := by
    simp [isSpace, hapart ' ' (by decide), hapart '\n' (by decide), hapart '\t' (by decide),
      hapart '\r' (by decide)]
  simp [start, hspace, hapart '[' (by decide), hapart ']' (by decide), hapart '\x7b' (by decide),
    hapart '\x7d' (by decide), hapart ',' (by decide), hapart ':' (by decide),
    hapart '"' (by decide), h]

/-- A word is read back if nothing that may be in a word follows it. -/
theorem scan_of_word {t : Token} {word : List Char} (hne : word ≠ [])
    (hword : ∀ c ∈ word, isWordChar c) (hread : readWord word = some t) {cs : List Char}
    (hends : Ends cs) : scan .between (word ++ cs) = (scan .between cs).map (t :: ·) := by
  cases word with
  | nil => exact absurd rfl hne
  | cons c word =>
    have hstep : Mode.between.step c = some ([], .word [c]) :=
      start_of_isWordChar (hword c (by simp))
    rw [List.cons_append, scan_cons_of_quiet _ hstep]
    exact scan_word [c] (fun d hd => hword d (by simp [hd])) hread hends

theorem isWordChar_of_mem_intChars {n : Int} {c : Char} (h : c ∈ intChars n) : isWordChar c := by
  have hdigit : ∀ k, c ∈ Nat.toDigits 10 k → isWordChar c := by
    intro k hc
    simp [isWordChar, Nat.isDigit_of_mem_toDigits (by decide) (by decide) hc]
  unfold intChars at h
  split at h
  · rcases List.mem_cons.1 h with rfl | h
    · rfl
    · exact hdigit _ h
  · exact hdigit _ h

/-! ## Sequences of tokens -/

/-- A token that is read back from its text. -/
def Token.Exact : Token → Prop
  | .int n => int64Min ≤ n ∧ n ≤ word64Max
  | .float _ | .immense | .text none => False
  | _ => True

/-- Whether a token is written as a word, which another word must not follow. -/
def Token.isWord : Token → Bool
  | .null | .bool _ | .int _ | .float _ | .immense => true
  | _ => false

/-- A token is read back from its text, with whatever follows it. -/
theorem scan_token {t : Token} (h : t.Exact) {cs : List Char} (hends : t.isWord → Ends cs) :
    scan .between (t.chars ++ cs) = (scan .between cs).map (t :: ·) := by
  cases t with
  | openList | closeList | openObject | closeObject | comma | colon =>
    exact scan_cons_of_token rfl cs
  | null => exact scan_of_word (List.cons_ne_nil _ _) (List.all_eq_true.1 rfl) rfl (hends rfl)
  | bool b =>
    cases b
    · exact scan_of_word (List.cons_ne_nil _ _) (List.all_eq_true.1 rfl) rfl (hends rfl)
    · exact scan_of_word (List.cons_ne_nil _ _) (List.all_eq_true.1 rfl) rfl (hends rfl)
  | int n =>
    refine scan_of_word ?_ (fun c => isWordChar_of_mem_intChars) (readWord_intChars h.1 h.2)
      (hends rfl)
    show intChars n ≠ []
    unfold intChars
    split
    · exact List.cons_ne_nil _ _
    · exact Nat.toDigits_ne_nil
  | float | immense => exact h.elim
  | text s =>
    cases s with
    | none => exact h.elim
    | some s => exact scan_textChars s cs

/-- Tokens that are read back from their text, no two words side by side. -/
def Separate : List Token → Prop
  | [] => True
  | t :: ts => t.Exact ∧ (t.isWord → ∀ u ∈ ts.head?, u.isWord = false) ∧ Separate ts

/-- A token that is no word ends the word before it. -/
theorem ends_chars {t : Token} (h : t.Exact) (hword : t.isWord = false) (cs : List Char) :
    Ends (t.chars ++ cs) := by
  intro c hc
  cases t with
  | openList | closeList | openObject | closeObject | comma | colon =>
    cases hc
    rfl
  | null | bool | int | float | immense => cases hword
  | text s =>
    cases s with
    | none => exact h.elim
    | some s =>
      cases hc
      rfl

/-- Written tokens are read back. -/
theorem scan_flatMap_chars {ts : List Token} (h : Separate ts) :
    scan .between (ts.flatMap Token.chars) = some ts := by
  induction ts with
  | nil => rfl
  | cons t ts ih =>
    obtain ⟨hexact, hapart, hrest⟩ := h
    rw [List.flatMap_cons, scan_token hexact, ih hrest, Option.map_some]
    intro hword
    cases ts with
    | nil => exact fun c hc => by cases hc
    | cons u ts => exact ends_chars hrest.1 (hapart hword u rfl) _

/-- The text of tokens is cut into them again. -/
theorem tokens_ofList {ts : List Token} (h : Separate ts) :
    tokens (String.ofList (ts.flatMap Token.chars)) = some ts := by
  rw [tokens, String.toList_ofList, scan_flatMap_chars h]

end ChainIndex.Json
