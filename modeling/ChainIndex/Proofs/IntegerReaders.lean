import ChainIndex.Proofs.DocumentText
import ChainIndex.Proofs.ScalarText
import Mathlib.Algebra.Group.Int.Defs

/-!
# Integers are read by their grammar

An integer is written by an optional sign and one or more digits, with blanks around it. The reader
of a contract's result takes such a text, or a literal of one as it stands in JSON, and the reader
of amounts takes the integers of JSON and strings that are such texts. Neither takes anything else.
-/

namespace ChainIndex

namespace Text

/-! ## Trimming -/

/-- Some characters without the blanks at their two ends. -/
structure Trims (cs t : List Char) : Prop where
  padded : PaddedBy isBlank cs t
  first : ∀ c ∈ t.head?, isBlank c = false
  last : ∀ c ∈ t.getLast?, isBlank c = false

section

variable {cs t w : List Char}

theorem trims_trimChars (cs : List Char) : Trims cs (trimChars cs) := by
  have hhead : ∀ (ds : List Char), ∀ c ∈ (ds.dropWhile isBlank).head?, isBlank c = false := by
    intro ds c hc
    have hnot := List.head?_dropWhile_not isBlank ds
    rwa [Option.mem_def.1 hc] at hnot
  -- the blanks in front go first, and then those at the end of what is kept
  let kept := cs.dropWhile isBlank
  have hkept : kept = trimChars cs ++ (kept.reverse.takeWhile isBlank).reverse := by
    rw [trimChars, ← List.reverse_append, List.takeWhile_append_dropWhile, List.reverse_reverse]
  refine ⟨⟨cs.takeWhile isBlank, (kept.reverse.takeWhile isBlank).reverse,
    fun c hc => List.mem_takeWhile_imp hc,
    fun c hc => List.mem_takeWhile_imp (List.mem_reverse.1 hc), ?_⟩, fun c hc => ?_, fun c hc => ?_⟩
  · rw [List.append_assoc, ← hkept, List.takeWhile_append_dropWhile]
  · refine hhead cs c ?_
    show kept.head? = some c
    rw [hkept, List.head?_append, Option.mem_def.1 hc, Option.some_or]
  · rw [trimChars, List.getLast?_reverse] at hc
    exact hhead _ c hc

/-- Trimming is to drop the blanks at the two ends, and no others. -/
theorem trimChars_eq_iff : trimChars cs = t ↔ Trims cs t := by
  constructor
  · rintro rfl
    exact trims_trimChars cs
  · rintro ⟨⟨before, after, hbefore, hafter, rfl⟩, hfirst, hlast⟩
    have hnone : ∀ {ds : List Char}, (∀ c ∈ ds, isBlank c) → ds.dropWhile isBlank = [] :=
      List.dropWhile_eq_nil_iff.2
    rw [List.append_assoc, trimChars_append_of_blank hbefore]
    cases t with
    | nil => rw [List.nil_append, trimChars, hnone hafter]; rfl
    | cons c t =>
      have hc : isBlank c = false := hfirst c rfl
      have hfront : (c :: t ++ after).dropWhile isBlank = c :: t ++ after := by
        rw [List.cons_append, List.dropWhile_cons, if_neg (by simp [hc])]
      have hback : ((c :: t) ++ after).reverse.dropWhile isBlank =
          (c :: t).reverse.dropWhile isBlank := by
        rw [List.reverse_append, List.dropWhile_append,
          hnone fun d hd => hafter d (List.mem_reverse.1 hd)]
        rfl
      have hself := trimChars_eq_self hfirst hlast
      rw [trimChars, List.dropWhile_cons, if_neg (by simp [hc])] at hself
      rw [trimChars, hfront, hback, hself]

end

/-! ## Integers -/

/-- The integer that an optional sign and one or more digits write. -/
inductive WritesInteger : List Char → Int → Prop
  | bare {ds : List Char} (hsome : ds ≠ []) (hdigits : AllDigits ds) :
    WritesInteger ds (Nat.ofDigitChars 10 ds 0)
  | plus {ds : List Char} (hsome : ds ≠ []) (hdigits : AllDigits ds) :
    WritesInteger ('+' :: ds) (Nat.ofDigitChars 10 ds 0)
  | minus {ds : List Char} (hsome : ds ≠ []) (hdigits : AllDigits ds) :
    WritesInteger ('-' :: ds) (-(Nat.ofDigitChars 10 ds 0 : Int))

section

variable {cs : List Char} {n : Int}

theorem readNatural_eq_some_iff {k : Nat} :
    readNatural cs = some k ↔ cs ≠ [] ∧ AllDigits cs ∧ Nat.ofDigitChars 10 cs 0 = k := by
  unfold readNatural AllDigits
  rw [Option.ite_none_left_eq_some, Bool.or_eq_true, not_or, Option.some_inj, and_assoc]
  simp

/-- A text of an integer without its sign is none with a sign. -/
theorem readInteger_of_allDigits (h : AllDigits cs) :
    readInteger cs = (readNatural cs).map Int.ofNat := by
  unfold readInteger
  split
  · exact absurd (h '+' List.mem_cons_self) (by decide)
  · exact absurd (h '-' List.mem_cons_self) (by decide)
  · rfl

/-- Integers are read by their grammar. -/
theorem readInteger_eq_some_iff : readInteger cs = some n ↔ WritesInteger cs n := by
  constructor
  · intro h
    unfold readInteger at h
    split at h
    all_goals
      obtain ⟨k, hk, rfl⟩ := Option.map_eq_some_iff.1 h
      obtain ⟨hsome, hdigits, rfl⟩ := readNatural_eq_some_iff.1 hk
    · exact .plus hsome hdigits
    · exact .minus hsome hdigits
    · exact .bare hsome hdigits
  · intro h
    have hread : ∀ {ds : List Char}, ds ≠ [] → AllDigits ds →
        readNatural ds = some (Nat.ofDigitChars 10 ds 0) :=
      fun hsome hdigits => readNatural_eq_some_iff.2 ⟨hsome, hdigits, rfl⟩
    cases h with
    | bare hsome hdigits => rw [readInteger_of_allDigits hdigits, hread hsome hdigits]; rfl
    | plus hsome hdigits => rw [readInteger, hread hsome hdigits]; rfl
    | minus hsome hdigits => rw [readInteger, hread hsome hdigits]; rfl

/-- An integer is written without blanks. -/
theorem WritesInteger.isBlank_eq_false (h : WritesInteger cs n) {c : Char} (hc : c ∈ cs) :
    isBlank c = false := by
  have hdigit : ∀ {ds : List Char}, AllDigits ds → ∀ c ∈ ds, isBlank c = false := by
    have hall : ∀ k < 10, isBlank k.digitChar = false := by decide
    intro ds hds c hc
    obtain ⟨hlt, heq⟩ := eq_digitChar (hds c hc)
    exact heq ▸ hall _ hlt
  cases h with
  | bare _ hdigits => exact hdigit hdigits c hc
  | plus _ hdigits =>
    rcases List.mem_cons.1 hc with rfl | hc
    · rfl
    · exact hdigit hdigits c hc
  | minus _ hdigits =>
    rcases List.mem_cons.1 hc with rfl | hc
    · rfl
    · exact hdigit hdigits c hc

/-- Blanks around an integer are all that trimming drops. -/
theorem WritesInteger.trims {w : List Char} (h : WritesInteger w n)
    (hpadded : PaddedBy isBlank cs w) : Trims cs w :=
  ⟨hpadded, fun _ hc => h.isBlank_eq_false (List.mem_of_mem_head? hc),
    fun _ hc => h.isBlank_eq_false (List.mem_of_mem_getLast? hc)⟩

/-- An integer is written by its own digits. -/
theorem writesInteger_intChars (n : Int) : WritesInteger (Json.intChars n) n := by
  have hdigits := allDigits_toDigits n.natAbs
  have hsome : Nat.toDigits 10 n.natAbs ≠ [] := Nat.toDigits_ne_nil
  have hvalue : Nat.ofDigitChars 10 (Nat.toDigits 10 n.natAbs) 0 = n.natAbs :=
    Nat.ofDigitChars_ten_toDigits
  unfold Json.intChars
  split
  · have hwritten := WritesInteger.minus hsome hdigits
    rw [hvalue] at hwritten
    convert hwritten using 1
    omega
  · have hwritten := WritesInteger.bare hsome hdigits
    rw [hvalue] at hwritten
    convert hwritten using 1
    omega

end

end Text

namespace Amount

open Json (Literal)
open Text (PaddedBy Trims WritesInteger isBlank)

/-- What a contract's result stands for: what it denotes if it is a literal, and itself if it is
none. -/
inductive Unquotes : List Char → List Char → Prop
  | literal {t : List Char} {inner : String} (h : Literal t inner) : Unquotes t inner.toList
  | bare {t : List Char} (h : ∀ inner, ¬Literal t inner) : Unquotes t t

section

variable {cs t u : List Char} {s inner : String} {n : Int}

/-- The amount of a text is the integer that it writes, within 128 bits. -/
theorem ofText_eq_some_iff :
    ofText s = some n ↔
      ∃ w, Trims s.toList w ∧ WritesInteger w n ∧ -2 ^ 127 ≤ n ∧ n < 2 ^ 127 := by
  have hbounds : (least ≤ n ∧ n ≤ greatest) ↔ -2 ^ 127 ≤ n ∧ n < 2 ^ 127 := by
    simp only [least, greatest]
    omega
  rw [ofText, Text.readBounded, Text.trim, String.toList_ofList, Option.filter_eq_some_iff,
    Text.readInteger_eq_some_iff, Bool.and_eq_true, decide_eq_true_iff, decide_eq_true_iff, hbounds]
  constructor
  · rintro ⟨hwrites, hfits⟩
    exact ⟨_, Text.trims_trimChars _, hwrites, hfits⟩
  · rintro ⟨w, htrims, hwrites, hfits⟩
    rw [Text.trimChars_eq_iff.2 htrims]
    exact ⟨hwrites, hfits⟩

/-- A literal is unquoted to the string that it denotes. -/
theorem unquote_of_literal (h : Literal t inner) : unquote (String.ofList t) = inner := by
  have hread : Json.Document.read (String.ofList t) = some (.text inner) := by
    refine Json.document_read_text_iff.2 ⟨t, h, [], [], by simp, by simp, ?_⟩
    rw [String.toList_ofList, List.nil_append, List.append_nil]
  obtain ⟨body, rfl, -⟩ := h
  have hquoted : 1 < (String.ofList ('"' :: body ++ ['"'])).utf8ByteSize ∧
      (String.ofList ('"' :: body ++ ['"'])).toList.head? = some '"' := by
    constructor
    · have hsize : (String.singleton '"').utf8ByteSize = 1 := by decide
      rw [String.ofList_append, String.ofList_cons, String.utf8ByteSize_append,
        String.utf8ByteSize_append, hsize, show String.ofList ['"'] = String.singleton '"' from rfl,
        hsize]
      omega
    · rw [String.toList_ofList]
      rfl
  rw [unquote, if_pos hquoted, hread]

/-- Nothing is trimmed off what stands between two quotes. -/
theorem trims_of_quoted (body : List Char) (hpadded : PaddedBy isBlank cs ('"' :: body ++ ['"'])) :
    Trims cs ('"' :: body ++ ['"']) := by
  refine ⟨hpadded, fun c hc => ?_, fun c hc => ?_⟩
  · cases hc
    rfl
  · rw [List.getLast?_concat] at hc
    cases hc
    rfl

theorem trims_of_literal (h : Literal t inner) (hpadded : PaddedBy isBlank cs t) : Trims cs t := by
  obtain ⟨body, rfl, -⟩ := h
  exact trims_of_quoted body hpadded

/-- A text without blanks at its ends that is read as a string is a literal of it. -/
theorem literal_of_read (hfirst : ∀ c ∈ t.head?, isBlank c = false)
    (hlast : ∀ c ∈ t.getLast?, isBlank c = false)
    (hread : Json.Document.read (String.ofList t) = some (.text inner)) : Literal t inner := by
  obtain ⟨literal, hliteral, before, after, hbefore, hafter, ht⟩ :=
    Json.document_read_text_iff.1 hread
  rw [String.toList_ofList] at ht
  have hblank : ∀ c, Json.isSpace c → isBlank c := by
    intro c hc
    simp only [Json.isSpace, Bool.or_eq_true, beq_iff_eq] at hc
    obtain ((rfl | rfl) | rfl) | rfl := hc <;> rfl
  have htrims : Trims t literal :=
    trims_of_literal hliteral ⟨before, after, fun c hc => hblank c (hbefore c hc),
      fun c hc => hblank c (hafter c hc), ht⟩
  have heq : t = literal := by
    rw [← Text.trimChars_eq_iff.2 htrims, Text.trimChars_eq_self hfirst hlast]
  exact heq ▸ hliteral

/-- The text of a string is a literal of it. -/
theorem literal_text (s : String) : Literal (Json.str s).text.toList s := by
  have hread : Json.Document.read (Json.str s).text = some (.text s) :=
    Json.read_text (.str s) (Nat.zero_le _)
  have htext : (Json.str s).text.toList = '"' :: s.toList.flatMap Json.escapeChar ++ ['"'] := by
    rw [Json.text, String.toList_ofList, Json.toTokens, List.flatMap_singleton, Json.Token.chars,
      Json.textChars]
  have htrims := trims_of_quoted (s.toList.flatMap Json.escapeChar)
    ⟨[], [], by simp, by simp, by rw [List.nil_append, List.append_nil]⟩
  rw [← htext] at htrims
  rw [← String.ofList_toList (s := (Json.str s).text)] at hread
  exact literal_of_read htrims.first htrims.last hread

/-- Once the blanks around it are gone, a text that is no literal has no string to it. -/
theorem unquote_of_bare (htrims : Trims cs t) (h : ∀ inner, ¬Literal t inner) :
    unquote (String.ofList t) = String.ofList t := by
  unfold unquote
  split
  · split
    · rename_i inner hread
      exact absurd (literal_of_read htrims.first htrims.last hread) (h inner)
    · rfl
  · rfl

theorem unquote_eq_iff (htrims : Trims cs t) :
    unquote (String.ofList t) = String.ofList u ↔ Unquotes t u := by
  constructor
  · intro h
    by_cases hliteral : ∃ inner, Literal t inner
    · obtain ⟨inner, hliteral⟩ := hliteral
      have hu : u = inner.toList := by
        rw [← unquote_of_literal hliteral, h, String.toList_ofList]
      exact hu ▸ .literal hliteral
    · have hnone := not_exists.1 hliteral
      rw [unquote_of_bare htrims hnone] at h
      have hu : t = u := String.ofList_injective h
      exact hu ▸ .bare hnone
  · intro h
    cases h with
    | literal hliteral => rw [unquote_of_literal hliteral, String.ofList_toList]
    | bare hnone => exact unquote_of_bare htrims hnone

/-- The integers of a contract's result are read by their grammar. -/
theorem ofResult_eq_ok_iff :
    ofResult s = .ok n ↔
      ∃ t u w, Trims s.toList t ∧ Unquotes t u ∧ Trims u w ∧ WritesInteger w n ∧
        -2 ^ 127 ≤ n ∧ n < 2 ^ 127 := by
  have hresult : ofResult s = .ok n ↔ ofText (unquote (Text.trim s)) = some n := by
    unfold ofResult
    split <;> simp_all
  rw [hresult]
  constructor
  · intro h
    obtain ⟨w, hw⟩ := ofText_eq_some_iff.1 h
    have htrims := Text.trims_trimChars s.toList
    have hunquotes := (unquote_eq_iff (u := (unquote (Text.trim s)).toList) htrims).1
      (by rw [String.ofList_toList]; rfl)
    exact ⟨_, _, w, htrims, hunquotes, hw⟩
  · rintro ⟨t, u, w, htrims, hunquotes, hw⟩
    have htext : unquote (Text.trim s) = String.ofList u := by
      rw [Text.trim, Text.trimChars_eq_iff.2 htrims]
      exact (unquote_eq_iff htrims).2 hunquotes
    rw [← String.toList_ofList (l := u)] at hw
    rw [htext]
    exact ofText_eq_some_iff.2 ⟨w, hw⟩

/-- An integer is no literal. -/
theorem not_literal {w : List Char} (hwrites : WritesInteger w n) : ¬Literal w inner := by
  rintro ⟨body, hw, -⟩
  -- a literal begins with a quote
  cases hwrites with
  | bare _ hdigits => exact absurd (hdigits '"' (hw ▸ List.mem_cons_self)) (by decide)
  | plus => cases hw
  | minus => cases hw

/-- An integer with blanks around it is a contract's result, and so is a literal of it. -/
theorem ofResult_of_padded {w : List Char} (hwrites : WritesInteger w n)
    (hpadded : PaddedBy isBlank s.toList w) (hlow : -2 ^ 127 ≤ n) (hhigh : n < 2 ^ 127) :
    ofResult s = .ok n ∧
      ∀ (literal : List Char) (outer : String), Literal literal s →
        PaddedBy isBlank outer.toList literal → ofResult outer = .ok n := by
  have hwself : Trims w w := hwrites.trims ⟨[], [], by simp, by simp, by simp⟩
  constructor
  · -- what is no literal stands for itself
    exact ofResult_eq_ok_iff.2 ⟨w, w, w, hwrites.trims hpadded,
      .bare fun _ => not_literal hwrites, hwself, hwrites, hlow, hhigh⟩
  · intro literal outer hliteral houter
    exact ofResult_eq_ok_iff.2 ⟨literal, s.toList, w, trims_of_literal hliteral houter,
      .literal hliteral, hwrites.trims hpadded, hwrites, hlow, hhigh⟩

/-- An amount is an integer, or a string that writes one within 128 bits. -/
theorem ofJson_eq_some_iff {v : Json} :
    ofJson v = some n ↔
      v = .int n ∨
        ∃ s w, v = .str s ∧ Trims s.toList w ∧ WritesInteger w n ∧ -2 ^ 127 ≤ n ∧ n < 2 ^ 127 := by
  cases v with
  | int m => simp [ofJson]
  | str s => simp [ofJson, ofText_eq_some_iff]
  | null => simp [ofJson]
  | bool => simp [ofJson]
  | float => simp [ofJson]
  | arr => simp [ofJson]
  | obj => simp [ofJson]

/-- The JSON texts of an amount: an integer of 64 bits, with a sign or without, and a literal of a
string that writes one of 128. -/
theorem ofJson_read_eq_some_iff :
    (Json.read s).bind ofJson = some n ↔
      (PaddedBy Json.isSpace s.toList (Json.intChars n) ∧ -2 ^ 63 ≤ n ∧ n < 2 ^ 64) ∨
        ∃ literal inner w, PaddedBy Json.isSpace s.toList literal ∧ Literal literal inner ∧
          Trims inner.toList w ∧ WritesInteger w n ∧ -2 ^ 127 ≤ n ∧ n < 2 ^ 127 := by
  have hword : (int64Min ≤ n ∧ n ≤ word64Max) ↔ -2 ^ 63 ≤ n ∧ n < 2 ^ 64 := by
    simp only [int64Min, word64Max]
    omega
  rw [Option.bind_eq_some_iff, ← hword, ← Json.read_int_iff]
  constructor
  · rintro ⟨v, hread, hv⟩
    rcases ofJson_eq_some_iff.1 hv with rfl | ⟨inner, w, rfl, hw⟩
    · exact .inl hread
    · obtain ⟨literal, hliteral, hpadded⟩ := Json.read_str_iff.1 hread
      exact .inr ⟨literal, inner, w, hpadded, hliteral, hw⟩
  · rintro (hread | ⟨literal, inner, w, hpadded, hliteral, hw⟩)
    · exact ⟨_, hread, ofJson_eq_some_iff.2 (.inl rfl)⟩
    · exact ⟨_, Json.read_str_iff.2 ⟨literal, hliteral, hpadded⟩,
        ofJson_eq_some_iff.2 (.inr ⟨inner, w, rfl, hw⟩)⟩

end

/-! ## Main statement -/

/-- Integers are read by their grammar: a contract's result is one if, without the blanks around it,
it is an integer with blanks around it or a literal of such a text; so that the digits of every
integer of 128 bits are read as that integer, with blanks and quotes or without. An amount is an
integer of JSON that fits a word of 64 bits, or a string that writes an integer of 128 bits, and no
other value. A literal, with whatever escapes, is unquoted to the string that it denotes. -/
theorem integers_are_read_by_their_grammar :
    (∀ (result : String) (n : Int),
      ofResult result = .ok n ↔
        ∃ t u w, Trims result.toList t ∧ Unquotes t u ∧ Trims u w ∧ WritesInteger w n ∧
          -2 ^ 127 ≤ n ∧ n < 2 ^ 127) ∧
    (∀ n : Int, -2 ^ 127 ≤ n → n < 2 ^ 127 →
      WritesInteger (Json.intChars n) n ∧
      ∀ (w : List Char) (s : String), WritesInteger w n → PaddedBy isBlank s.toList w →
        ofResult s = .ok n ∧
        ∀ (literal : List Char) (outer : String), Literal literal s →
          PaddedBy isBlank outer.toList literal → ofResult outer = .ok n) ∧
    (∀ (v : Json) (n : Int),
      ofJson v = some n ↔
        v = .int n ∨
          ∃ s w, v = .str s ∧ Trims s.toList w ∧ WritesInteger w n ∧
            -2 ^ 127 ≤ n ∧ n < 2 ^ 127) ∧
    (∀ (text : String) (n : Int),
      (Json.read text).bind ofJson = some n ↔
        (PaddedBy Json.isSpace text.toList (Json.intChars n) ∧ -2 ^ 63 ≤ n ∧ n < 2 ^ 64) ∨
          ∃ literal s w, PaddedBy Json.isSpace text.toList literal ∧ Literal literal s ∧
            Trims s.toList w ∧ WritesInteger w n ∧ -2 ^ 127 ≤ n ∧ n < 2 ^ 127) ∧
    ∀ s : String, Literal (Json.str s).text.toList s ∧
      ∀ literal, Literal literal s → unquote (String.ofList literal) = s := by
  refine ⟨fun result n => ofResult_eq_ok_iff, fun n hlow hhigh => ⟨Text.writesInteger_intChars n,
    fun w s hwrites hpadded => ofResult_of_padded hwrites hpadded hlow hhigh⟩,
    fun v n => ofJson_eq_some_iff, fun text n => ofJson_read_eq_some_iff,
    fun s => ⟨literal_text s, fun literal h => unquote_of_literal h⟩⟩

/-- The integer 42 with a plus sign and blanks, in a literal that escapes a digit and a blank, with
blanks around the literal. -/
theorem escaped_integer_is_read :
    WritesInteger ['+', '4', '2'] 42 ∧
    PaddedBy isBlank " +42\n".toList ['+', '4', '2'] ∧
    Literal ['"', ' ', '+', '\\', 'u', '0', '0', '3', '4', '2', '\\', 'n', '"'] " +42\n" ∧
    PaddedBy isBlank "\t\" +\\u00342\\n\"".toList
      ['"', ' ', '+', '\\', 'u', '0', '0', '3', '4', '2', '\\', 'n', '"'] ∧
    ofResult "\t\" +\\u00342\\n\"" = .ok 42 := by
  have hdigits : AllDigits ['4', '2'] := List.all_eq_true.1 (by decide)
  have hwrites : WritesInteger ['+', '4', '2'] 42 := .plus (by decide) hdigits
  have hinner : PaddedBy isBlank " +42\n".toList ['+', '4', '2'] :=
    ⟨[' '], ['\n'], List.all_eq_true.1 (by decide), List.all_eq_true.1 (by decide), by decide⟩
  have houter : PaddedBy isBlank "\t\" +\\u00342\\n\"".toList
      ['"', ' ', '+', '\\', 'u', '0', '0', '3', '4', '2', '\\', 'n', '"'] :=
    ⟨['\t'], [], List.all_eq_true.1 (by decide), nofun, by decide⟩
  have hunit : Json.FourHex ['0', '0', '3', '4'] '4'.toNat :=
    .digits (i := 0) (j := 0) (k := 3) (l := 4) (by decide) (by decide) (by decide) (by decide)
  have hliteral : Literal ['"', ' ', '+', '\\', 'u', '0', '0', '3', '4', '2', '\\', 'n', '"']
      " +42\n" :=
    ⟨_, rfl, .plain (by decide) (by decide) (by decide) (.plain (by decide) (by decide) (by decide)
      (.unit hunit (by decide) (by decide) (.plain (by decide) (by decide) (by decide)
        (.escape (by decide) .nil))))⟩
  have hread := (integers_are_read_by_their_grammar.2.1 42 (by decide) (by decide)).2 _ _ hwrites
    hinner
  exact ⟨hwrites, hinner, hliteral, houter, hread.2 _ _ hliteral houter⟩

end Amount

end ChainIndex
