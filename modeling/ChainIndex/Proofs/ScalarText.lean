import ChainIndex.Json.Document
import ChainIndex.Proofs.StringLiterals

/-!
# Texts of integers and strings

Which texts are read as an integer, and which as a string: those that hold the digits of the
integer, or a literal of the string, and nothing else but spaces around it. The digits of an integer
are the ones that it is written with, so that minus zero, fractions, exponents and integers that no
word of 64 bits holds are read as something else.
-/

namespace ChainIndex

/-- Some characters with others of a class in front of them and behind them. -/
def Text.PaddedBy (p : Char → Bool) (cs inner : List Char) : Prop :=
  ∃ before after, (∀ c ∈ before, p c) ∧ (∀ c ∈ after, p c) ∧ cs = before ++ inner ++ after

namespace Json

open Text (PaddedBy)

/-! ## One token -/

/-- The brackets and the separators. -/
def marks : List Token := [.openList, .closeList, .openObject, .closeObject, .comma, .colon]

/-- The characters that are cut out of a text as a token. -/
inductive Spelt : Token → List Char → Prop
  | mark {t : Token} (c : Char) (h : t ∈ marks) : Spelt t [c]
  | word {t : Token} {word : List Char} (hne : word ≠ []) (hword : ∀ c ∈ word, isWordChar c)
    (hread : readWord word = some t) : Spelt t word
  | string {body : List Char} {us : List Nat} (h : Units body us) :
    Spelt (.text ((joinUnits us).map String.ofList)) ('"' :: (body ++ ['"']))

section

variable {cs : List Char} {t : Token} {ts : List Token}

/-- A character between tokens is a space, a token, or the first one of a string or a word. -/
theorem of_start {c : Char} {made : List Token × Mode} (h : start c = some made) :
    (isSpace c ∧ made = ([], .between)) ∨ (∃ t ∈ marks, made = ([t], .between)) ∨
      (c = '"' ∧ made = ([], .text [])) ∨ isWordChar c ∧ made = ([], .word [c]) := by
  unfold start at h
  split at h
  · exact .inl ⟨‹_›, (Option.some.inj h).symm⟩
  -- the marks
  iterate 6
    split at h
    · exact .inr (.inl ⟨_, by simp [marks], (Option.some.inj h).symm⟩)
  split at h
  · exact .inr (.inr (.inl ⟨‹_›, (Option.some.inj h).symm⟩))
  split at h
  · exact .inr (.inr (.inr ⟨‹_›, (Option.some.inj h).symm⟩))
  · cases h

/-- A word that is scanned is a token, and ends before a character that is in no word. -/
theorem of_scan_word {done : List Char} (h : scan (.word done) cs = some ts) :
    ∃ word rest t ts', cs = word ++ rest ∧ (∀ c ∈ word, isWordChar c) ∧
      readWord (done.reverse ++ word) = some t ∧ scan .between rest = some ts' ∧ ts = t :: ts' := by
  induction cs generalizing done with
  | nil =>
    obtain ⟨t, ht, rfl⟩ := Option.map_eq_some_iff.1 h
    exact ⟨[], [], t, [], rfl, nofun, by rwa [List.append_nil], rfl, rfl⟩
  | cons c cs ih =>
    by_cases hc : isWordChar c
    · rw [scan_cons_of_quiet (.word (c :: done)) (by simp [Mode.step, hc])] at h
      obtain ⟨word, rest, t, ts', rfl, hword, hread, hrest, hts⟩ := ih h
      refine ⟨c :: word, rest, t, ts', rfl, fun d hd => ?_, by simpa using hread, hrest, hts⟩
      rcases List.mem_cons.1 hd with rfl | hd
      · exact hc
      · exact hword d hd
    · -- the word has ended, and this character belongs to what comes after it
      cases hread : readWord done.reverse with
      | none =>
        rw [scan_cons, Mode.step, if_neg hc, hread] at h
        cases h
      | some t =>
        have hscan : scan (.word done) (c :: cs) = (scan .between (c :: cs)).map (t :: ·) := by
          have hends : Ends (c :: cs) := by
            rintro d hd
            cases hd
            exact Bool.eq_false_iff.2 hc
          have hnone : ∀ d ∈ ([] : List Char), isWordChar d := nofun
          exact scan_word done hnone (by rwa [List.append_nil]) hends
        rw [hscan] at h
        obtain ⟨ts', hts', rfl⟩ := Option.map_eq_some_iff.1 h
        exact ⟨[], c :: cs, t, ts', rfl, nofun, by rwa [List.append_nil], hts', rfl⟩

/-- Where a text begins with spaces, they are passed over. -/
theorem scan_spaces {spaces : List Char} (h : ∀ c ∈ spaces, isSpace c) :
    scan .between (spaces ++ cs) = scan .between cs := by
  induction spaces with
  | nil => rfl
  | cons c spaces ih =>
    have hc : isSpace c := h c (by simp)
    rw [List.cons_append, scan_cons_of_quiet .between (by simp [Mode.step, start, hc]),
      ih fun d hd => h d (by simp [hd])]

/-- A text is cut into its first token and the rest, or there are only spaces. -/
theorem of_scan_between (h : scan .between cs = some ts) :
    (ts = [] ∧ ∀ c ∈ cs, isSpace c) ∨
      ∃ spaces piece rest t ts', (∀ c ∈ spaces, isSpace c) ∧ cs = spaces ++ (piece ++ rest) ∧
        Spelt t piece ∧ scan .between rest = some ts' ∧ ts = t :: ts' := by
  induction cs with
  | nil => exact .inl ⟨(Option.some.inj h).symm, nofun⟩
  | cons c cs ih =>
    have hstart : ∃ made, start c = some made := by
      cases hmade : start c with
      | none =>
        rw [scan_cons, Mode.step, hmade] at h
        cases h
      | some made => exact ⟨made, rfl⟩
    obtain ⟨made, hmade⟩ := hstart
    have hstep : Mode.between.step c = some made := hmade
    -- a mark is a token by itself; a quote or a character of words only begins one
    rcases of_start hmade with ⟨hspace, rfl⟩ | ⟨t, ht, rfl⟩ | ⟨rfl, rfl⟩ | ⟨hword, rfl⟩
    · have hquiet : scan .between (c :: cs) = scan .between cs := scan_cons_of_quiet _ hstep cs
      rw [hquiet] at h
      rcases ih h with ⟨hts, hspaces⟩ | ⟨spaces, piece, rest, t, ts', hspaces, rfl, hrest⟩
      · exact .inl ⟨hts, List.forall_mem_cons.2 ⟨hspace, hspaces⟩⟩
      · exact .inr ⟨c :: spaces, piece, rest, t, ts', List.forall_mem_cons.2 ⟨hspace, hspaces⟩, rfl,
          hrest⟩
    · have htoken : scan .between (c :: cs) = (scan .between cs).map (t :: ·) :=
        scan_cons_of_token hstep cs
      rw [htoken] at h
      obtain ⟨ts', hts', rfl⟩ := Option.map_eq_some_iff.1 h
      exact .inr ⟨[], [c], cs, t, ts', nofun, rfl, .mark c ht, hts', rfl⟩
    · have hquiet : scan .between ('"' :: cs) = scan (.text []) cs := scan_cons_of_quiet _ hstep cs
      obtain ⟨body, us, rest, rfl, hunits⟩ := of_scan_text (hquiet ▸ h)
      rw [scan_string hunits] at h
      obtain ⟨ts', hts', rfl⟩ := Option.map_eq_some_iff.1 h
      exact .inr ⟨[], _, rest, _, ts', nofun, by simp, .string hunits, hts', rfl⟩
    · have hquiet : scan .between (c :: cs) = scan (.word [c]) cs := scan_cons_of_quiet _ hstep cs
      obtain ⟨word, rest, t, ts', rfl, hall, hread, hrest, hts⟩ := of_scan_word (hquiet ▸ h)
      exact .inr ⟨[], c :: word, rest, t, ts', nofun, rfl,
        .word (List.cons_ne_nil _ _) (List.forall_mem_cons.2 ⟨hword, hall⟩) hread, hrest, hts⟩

/-- A space is in no word. -/
theorem isWordChar_of_isSpace {c : Char} (h : isSpace c) : isWordChar c = false := by
  simp only [isSpace, Bool.or_eq_true, beq_iff_eq] at h
  rcases h with ((rfl | rfl) | rfl) | rfl <;> rfl

/-- A text of one token holds its characters and spaces around them. -/
theorem of_scan_singleton (h : scan .between cs = some [t]) :
    ∃ piece, Spelt t piece ∧ PaddedBy isSpace cs piece := by
  rcases of_scan_between h with ⟨hnone, -⟩ | ⟨before, piece, rest, u, ts', hbefore, rfl, hpiece,
    hrest, hts⟩
  · cases hnone
  · cases hts
    rcases of_scan_between hrest with ⟨-, hafter⟩ | ⟨_, _, _, _, _, _, _, _, _, hmore⟩
    · exact ⟨piece, hpiece, before, rest, hbefore, hafter, (List.append_assoc _ _ _).symm⟩
    · cases hmore

/-- Spaces alone make no token. -/
theorem scan_only_spaces (h : ∀ c ∈ cs, isSpace c) : scan .between cs = some [] := by
  have hspaces : scan .between (cs ++ []) = scan .between [] := scan_spaces h
  rwa [List.append_nil] at hspaces

end

/-! ## Numbers -/

/-- A number that is no integer. -/
def Token.IsDouble : Token → Prop
  | .float _ | .immense => True
  | _ => False

theorem readDouble_isDouble (negative : Bool) (whole fraction : List Char) (exponent : Int) :
    (readDouble negative whole fraction exponent).IsDouble := by
  unfold readDouble
  split
  split
  split <;> trivial

/-- A number without a sign is a double, or written by digits alone, none of which can be left
out. -/
theorem of_readMagnitude {negative : Bool} {ds : List Char} {t : Token}
    (h : readMagnitude negative ds = some t) :
    t.IsDouble ∨
      ds ≠ [] ∧ AllDigits ds ∧ NoLeadingZero ds ∧ t = readWhole negative ds := by
  have hdouble : ∀ {o : Option Int} {fraction : List Char},
      o.map (readDouble negative (ds.takeWhile Char.isDigit) fraction) = some t → t.IsDouble := by
    intro o fraction ho
    obtain ⟨exponent, -, rfl⟩ := Option.map_eq_some_iff.1 ho
    exact readDouble_isDouble _ _ _ _
  simp only [readMagnitude] at h
  split at h
  · cases h
  rename_i hzero
  split at h
  · rename_i hrest
    have hall : AllDigits ds := List.dropWhile_eq_nil_iff.1 hrest
    rw [List.takeWhile_eq_self_iff.2 hall] at h hzero
    rw [Bool.not_eq_true, Bool.or_eq_false_iff, Bool.and_eq_false_iff] at hzero
    refine .inr ⟨List.isEmpty_eq_false_iff.1 hzero.1, hall, fun hhead => ?_,
      (Option.some.inj h).symm⟩
    -- a zero in front is the only digit
    rcases hzero.2 with hshort | hother
    · obtain ⟨rest, rfl⟩ := List.head?_eq_some_iff.1 hhead
      simpa using hshort
    · exact absurd hhead (beq_eq_false_iff_ne.1 hother)
  · -- a fraction, which an exponent may follow
    split at h
    · cases h
    split at h
    · cases h
      exact .inl (readDouble_isDouble _ _ _ _)
    · split at h
      · exact .inl (hdouble h)
      · cases h
  · -- an exponent alone
    split at h
    · exact .inl (hdouble h)
    · cases h

/-- A word is one of three, or a number with or without a minus sign. -/
theorem of_readWord {word : List Char} {t : Token} (h : readWord word = some t) :
    t = .null ∨ (∃ b, t = .bool b) ∨ (∃ ds, word = '-' :: ds ∧ readMagnitude true ds = some t) ∨
      readMagnitude false word = some t := by
  unfold readWord at h
  split at h
  · exact .inl (Option.some.inj h).symm
  · exact .inr (.inl ⟨true, (Option.some.inj h).symm⟩)
  · exact .inr (.inl ⟨false, (Option.some.inj h).symm⟩)
  · exact .inr (.inr (.inl ⟨_, rfl, h⟩))
  · exact .inr (.inr (.inr h))

/-- Digits alone make an integer, or a double if no word of 64 bits has room for it. -/
theorem readWhole_cases (negative : Bool) (ds : List Char) :
    (readWhole negative ds).IsDouble ∨
      ∃ n, readWhole negative ds = .int n ∧ (n < 0 ↔ negative) ∧
        n.natAbs = Nat.ofDigitChars 10 ds 0 ∧ int64Min ≤ n ∧ n ≤ word64Max := by
  unfold readWhole int64Min word64Max
  cases negative with
  | true =>
    simp only [if_true]
    split
    · refine .inr ⟨_, rfl, ?_⟩
      simp only [iff_true]
      omega
    · exact .inl (readDouble_isDouble _ _ _ _)
  | false =>
    simp only [Bool.false_eq_true, if_false]
    split
    · refine .inr ⟨_, rfl, ?_⟩
      simp only [iff_false]
      omega
    · exact .inl (readDouble_isDouble _ _ _ _)

/-- An integer is read from its digits, and from nothing else. -/
theorem readWord_eq_int_iff {word : List Char} {n : Int} :
    readWord word = some (.int n) ↔ word = intChars n ∧ int64Min ≤ n ∧ n ≤ word64Max := by
  refine ⟨fun h => ?_, fun ⟨hword, hlow, hhigh⟩ => hword ▸ readWord_intChars hlow hhigh⟩
  have hdigits : ∀ {negative : Bool} {ds : List Char}, readMagnitude negative ds = some (.int n) →
      (n < 0 ↔ negative) ∧ ds = Nat.toDigits 10 n.natAbs ∧ int64Min ≤ n ∧ n ≤ word64Max := by
    intro negative ds hread
    rcases of_readMagnitude hread with hdouble | ⟨hsome, hall, hzero, hwhole⟩
    · exact hdouble.elim
    · rcases readWhole_cases negative ds with hdouble | ⟨n, hint, hsign, habs, hrange⟩
      · exact (hwhole ▸ hdouble).elim
      · cases hwhole.trans hint
        exact ⟨hsign, by rw [habs, toDigits_ofDigitChars hall hsome hzero], hrange⟩
  rcases of_readWord h with hnull | ⟨b, hbool⟩ | ⟨ds, rfl, hread⟩ | hread
  · cases hnull
  · cases hbool
  · obtain ⟨hsign, rfl, hrange⟩ := hdigits hread
    exact ⟨by rw [intChars, if_pos (hsign.2 rfl)], hrange⟩
  · obtain ⟨hsign, rfl, hrange⟩ := hdigits hread
    exact ⟨by rw [intChars, if_neg (by simp [hsign])], hrange⟩

/-- No word is read as a string. -/
theorem readWord_ne_text {word : List Char} {s : Option String} :
    readWord word ≠ some (.text s) := by
  intro h
  have hmagnitude : ∀ {negative : Bool} {ds : List Char},
      readMagnitude negative ds ≠ some (.text s) := by
    intro negative ds hread
    rcases of_readMagnitude hread with hdouble | ⟨-, -, -, hwhole⟩
    · exact hdouble
    · rcases readWhole_cases negative ds with hdouble | ⟨n, hint, -⟩
      · rw [← hwhole] at hdouble
        exact hdouble
      · cases hwhole.trans hint
  rcases of_readWord h with hnull | ⟨b, hbool⟩ | ⟨ds, -, hread⟩ | hread
  · cases hnull
  · cases hbool
  · exact hmagnitude hread
  · exact hmagnitude hread

/-! ## Texts of one token -/

section

variable {cs : List Char}

/-- The literal of a string is the only way to write its token. -/
theorem scan_singleton_text_iff {s : String} :
    scan .between cs = some [.text (some s)] ↔
      ∃ literal, Literal literal s ∧ PaddedBy isSpace cs literal := by
  constructor
  · intro h
    obtain ⟨piece, hpiece, hpadded⟩ := of_scan_singleton h
    refine ⟨piece, ?_, hpadded⟩
    generalize ht : Token.text (some s) = t at hpiece
    cases hpiece with
    | mark _ hmark =>
      subst ht
      simp [marks] at hmark
    | word _ _ hread =>
      subst ht
      exact absurd hread readWord_ne_text
    | @string body us hunits =>
      obtain ⟨s', hs', hs⟩ := Option.map_eq_some_iff.1 (Token.text.inj ht).symm
      exact ⟨body, rfl, hunits.denotes (by rw [hs', ← hs, String.toList_ofList])⟩
  · rintro ⟨_, ⟨body, rfl, hdenotes⟩, before, after, hbefore, hafter, rfl⟩
    obtain ⟨us, hunits, hjoin⟩ := hdenotes.units
    rw [List.append_assoc, scan_spaces hbefore]
    show scan .between ('"' :: (body ++ ['"'] ++ after)) = _
    rw [List.append_assoc, List.singleton_append, scan_string hunits, scan_only_spaces hafter,
      hjoin, Option.map_some, Option.map_some, String.ofList_toList]

/-- The digits of an integer are the only way to write its token. -/
theorem scan_singleton_int_iff {n : Int} :
    scan .between cs = some [.int n] ↔
      PaddedBy isSpace cs (intChars n) ∧ int64Min ≤ n ∧ n ≤ word64Max := by
  constructor
  · intro h
    obtain ⟨piece, hpiece, hpadded⟩ := of_scan_singleton h
    cases hpiece with
    | mark _ hmark => simp [marks] at hmark
    | word _ _ hread =>
      obtain ⟨rfl, hrange⟩ := readWord_eq_int_iff.1 hread
      exact ⟨hpadded, hrange⟩
  · rintro ⟨⟨before, after, hbefore, hafter, rfl⟩, hlow, hhigh⟩
    have hends : Ends after := fun c hc =>
      isWordChar_of_isSpace (hafter c (List.mem_of_mem_head? hc))
    have hexact : (Token.int n).Exact := ⟨hlow, hhigh⟩
    have hint : scan .between (intChars n ++ after) =
        (scan .between after).map (.int n :: ·) := scan_token hexact fun _ => hends
    rw [List.append_assoc, scan_spaces hbefore, hint, scan_only_spaces hafter, Option.map_some]

end

/-! ## Documents of one token -/

/-- A document of several tokens, or none at all. -/
def Document.IsNested : Document → Prop
  | .list _ | .object _ | .unreadable => True
  | _ => False

/-- The reading has gone into a list or an object, or come out of one. -/
def Reading.Nested (reading : Reading) : Prop :=
  reading.frames ≠ [] ∨ ∃ d, reading.expect = .ended d ∧ d.IsNested

section

variable {reading next : Reading} {frames : List Frame} {d : Document} {t : Token} {ts : List Token}

/-- A document inside of another leaves the outer one open. -/
theorem Reading.Nested.of_complete (h : Reading.complete d frames = some next)
    (hd : frames = [] → d.IsNested) : next.Nested := by
  unfold Reading.complete at h
  split at h
  · cases h
    exact .inr ⟨d, rfl, hd rfl⟩
  · cases h
    exact .inl (List.cons_ne_nil _ _)
  · cases h
    exact .inl (List.cons_ne_nil _ _)
  · cases h

theorem Reading.Nested.of_push {frame : Frame} {expect : Expect}
    (h : Reading.push frame expect frames = some next) : next.Nested := by
  unfold Reading.push at h
  split at h
  · cases h
    exact .inl (List.cons_ne_nil _ _)
  · cases h

theorem Reading.Nested.of_begin (h : Reading.begin frames t = some next) (hframes : frames ≠ []) :
    next.Nested := by
  unfold Reading.begin at h
  split at h
  iterate 2 exact of_push h
  iterate 7 exact of_complete h fun hnone => absurd hnone hframes
  cases h

theorem Reading.Nested.of_close (h : Reading.close frames t = some next) : next.Nested := by
  unfold Reading.close at h
  split at h
  · split at h
    · exact of_complete h fun _ => trivial
    · cases h
  · split at h
    · refine of_complete h fun _ => ?_
      unfold closeMembers
      split <;> trivial
    · cases h
  · cases h

/-- A reading that has gone into a list or an object does not come to anything else. -/
theorem Reading.Nested.step (h : reading.Nested) (hstep : reading.step t = some next) :
    next.Nested := by
  obtain ⟨frames, expect⟩ := reading
  rcases h with hframes | ⟨d, rfl, -⟩
  · -- the cases are what the reading expects; a frame is open in all of them
    unfold Reading.step at hstep
    split at hstep
    · exact of_begin hstep hframes
    · exact of_close hstep
    · exact of_begin hstep hframes
    · cases hstep
      exact .inl hframes
    · cases hstep
      exact .inl hframes
    · exact of_close hstep
    · split at hstep
      · cases hstep
        exact .inl (List.cons_ne_nil _ _)
      · cases hstep
    · split at hstep
      · cases hstep
        exact .inl (List.cons_ne_nil _ _)
      · cases hstep
        exact .inl (List.cons_ne_nil _ _)
      · cases hstep
    · exact of_close hstep
    · cases hstep
  · cases hstep

theorem Reading.Nested.run (h : reading.Nested) (hrun : reading.run ts = some next) :
    next.Nested := by
  induction ts generalizing reading with
  | nil =>
    cases hrun
    exact h
  | cons t ts ih =>
    obtain ⟨between, hstep, hrest⟩ := Option.bind_eq_some_iff.1 hrun
    exact ih (h.step hstep) hrest

/-- The first token makes a document, unless it opens a list or an object. -/
theorem Reading.begin_nil_cases (h : Reading.begin [] t = some next) :
    next.Nested ∨ ∃ d, next = ⟨[], .ended d⟩ := by
  unfold Reading.begin at h
  split at h
  iterate 2 exact .inl (.of_push h)
  iterate 7 exact .inr ⟨_, (Option.some.inj h).symm⟩
  cases h

/-- A document that is no list and no object is one of a single token. -/
theorem ofTokens_eq_some_iff (hd : ¬d.IsNested) :
    Document.ofTokens ts = some d ↔
      ∃ t, ts = [t] ∧ Reading.begin [] t = some ⟨[], .ended d⟩ := by
  constructor
  · intro h
    unfold Document.ofTokens at h
    split at h
    · rename_i hrun
      cases h
      cases ts with
      | nil => cases hrun
      | cons t ts =>
        obtain ⟨first, hstep, hrest⟩ := Option.bind_eq_some_iff.1 hrun
        have hbegin : Reading.begin [] t = some first := hstep
        rcases Reading.begin_nil_cases hbegin with hnested | ⟨d', rfl⟩
        · rcases hnested.run hrest with hframes | ⟨d', hd', hnested⟩
          · exact absurd rfl hframes
          · cases hd'
            exact absurd hnested hd
        · -- nothing is taken after a document that is complete
          cases ts with
          | nil =>
            cases hrest
            exact ⟨t, rfl, hbegin⟩
          | cons => cases hrest
    · cases h
  · rintro ⟨t, rfl, hbegin⟩
    have hrun : Reading.run ⟨[], .value⟩ [t] = some ⟨[], .ended d⟩ := by
      show (Reading.begin [] t).bind _ = _
      rw [hbegin]
      rfl
    rw [Document.ofTokens, hrun]

end

section

variable {text s : String} {n : Int}

/-- The texts that are read as an integer. -/
theorem document_read_int_iff :
    Document.read text = some (.int n) ↔
      PaddedBy isSpace text.toList (intChars n) ∧ int64Min ≤ n ∧ n ≤ word64Max := by
  rw [Document.read, tokens, Option.bind_eq_some_iff, ← scan_singleton_int_iff]
  constructor
  · rintro ⟨ts, hts, hdocument⟩
    obtain ⟨t, rfl, hbegin⟩ := (ofTokens_eq_some_iff id).1 hdocument
    unfold Reading.begin at hbegin
    split at hbegin <;> cases hbegin
    exact hts
  · exact fun h => ⟨_, h, rfl⟩

/-- The texts that are read as a string. -/
theorem document_read_text_iff :
    Document.read text = some (.text s) ↔
      ∃ literal, Literal literal s ∧ PaddedBy isSpace text.toList literal := by
  rw [Document.read, tokens, Option.bind_eq_some_iff, ← scan_singleton_text_iff]
  constructor
  · rintro ⟨ts, hts, hdocument⟩
    obtain ⟨t, rfl, hbegin⟩ := (ofTokens_eq_some_iff id).1 hdocument
    unfold Reading.begin at hbegin
    split at hbegin <;> cases hbegin
    exact hts
  · exact fun h => ⟨_, h, rfl⟩

/-- The texts whose value is an integer. -/
theorem read_int_iff :
    read text = some (.int n) ↔
      PaddedBy isSpace text.toList (intChars n) ∧ int64Min ≤ n ∧ n ≤ word64Max := by
  rw [← document_read_int_iff, read, Option.bind_eq_some_iff]
  constructor
  · rintro ⟨d, hread, hvalue⟩
    cases d <;> simp [Document.value?] at hvalue
    rwa [hvalue] at hread
  · exact fun h => ⟨_, h, by rw [Document.value?]⟩

/-- The texts whose value is a string. -/
theorem read_str_iff :
    read text = some (.str s) ↔
      ∃ literal, Literal literal s ∧ PaddedBy isSpace text.toList literal := by
  rw [← document_read_text_iff, read, Option.bind_eq_some_iff]
  constructor
  · rintro ⟨d, hread, hvalue⟩
    cases d <;> simp [Document.value?] at hvalue
    rwa [hvalue] at hread
  · exact fun h => ⟨_, h, by rw [Document.value?]⟩

end

end Json

end ChainIndex
