import ChainIndex.Json.Document
import ChainIndex.Proofs.TokenText

/-!
# Values read back from their text

The text of a value is read as the document that writes the value down, if the value holds nothing
but integers of a word among its numbers and nests no deeper than is allowed. Where its objects are
in key order, as the value type keeps them, the document has the value again.
-/

namespace ChainIndex

/-! ## Members in key order -/

namespace Members

/-- A key past all others goes to the end. -/
theorem put_of_lt {key : String} {value : Json} {ms : Members} (h : ∀ m ∈ ms, m.1 < key) :
    put key value ms = ms ++ [(key, value)] := by
  induction ms with
  | nil => rfl
  | cons m ms ih =>
    obtain ⟨k, v⟩ := m
    have hlt : k < key := h (k, v) (by simp)
    have hne : key ≠ k := by
      rintro rfl
      exact String.lt_irrefl _ hlt
    rw [put, if_neg (String.lt_asymm hlt), if_neg hne, ih fun m hm => h m (by simp [hm])]
    rfl

/-- Members in key order stay as they are. -/
theorem ofList_of_sorted {ms : Members} (h : ms.Sorted) : ofList ms = ms := by
  have go : ∀ after before : Members, Sorted (before ++ after) →
      after.foldl (fun sorted member => put member.1 member.2 sorted) before = before ++ after := by
    intro after
    induction after with
    | nil => exact fun before _ => (List.append_nil before).symm
    | cons m after ih =>
      intro before hsorted
      have hlast : ∀ b ∈ before, b.1 < m.1 := fun b hb =>
        (List.pairwise_append.1 hsorted).2.2 b hb m (by simp)
      rw [List.foldl_cons, put_of_lt hlast, ih]
      · rw [List.append_assoc, List.singleton_append]
      · rwa [List.append_assoc, List.singleton_append]
  exact go ms [] h

end Members

namespace Json

/-! ## Values -/

/-- A value whose numbers are integers that a word of 64 bits holds, signed for a negative one. -/
inductive Exact : Json → Prop
  | null : Exact .null
  | bool (b : Bool) : Exact (.bool b)
  | int (n : Int) (hlow : int64Min ≤ n) (hhigh : n ≤ word64Max) : Exact (.int n)
  | str (s : String) : Exact (.str s)
  | arr (items : List Json) (hitems : ∀ v ∈ items, v.Exact) : Exact (.arr items)
  | obj (members : List (String × Json)) (hmembers : ∀ m ∈ members, m.2.Exact) :
    Exact (.obj members)

/-- A value without floating-point numbers, as the value type can hold it: its integers fit a word
of 64 bits, its objects are in key order. -/
inductive Plain : Json → Prop
  | null : Plain .null
  | bool (b : Bool) : Plain (.bool b)
  | int (n : Int) (hlow : int64Min ≤ n) (hhigh : n ≤ word64Max) : Plain (.int n)
  | str (s : String) : Plain (.str s)
  | arr (items : List Json) (hitems : ∀ v ∈ items, v.Plain) : Plain (.arr items)
  | obj (members : List (String × Json)) (hsorted : Members.Sorted members)
    (hmembers : ∀ m ∈ members, m.2.Plain) : Plain (.obj members)

theorem Plain.exact {v : Json} (h : v.Plain) : v.Exact := by
  induction h with
  | null => exact .null
  | bool b => exact .bool b
  | int n hlow hhigh => exact .int n hlow hhigh
  | str s => exact .str s
  | arr items _ ih => exact .arr items ih
  | obj members _ _ ih => exact .obj members ih

mutual

/-- How deeply lists and objects are nested in a value. -/
def depth : Json → Nat
  | .arr items => itemsDepth items + 1
  | .obj members => membersDepth members + 1
  | _ => 0

/-- The greatest depth of the items of an array. -/
def itemsDepth : List Json → Nat
  | [] => 0
  | v :: vs => max v.depth (itemsDepth vs)

/-- The greatest depth of the members of an object. -/
def membersDepth : List (String × Json) → Nat
  | [] => 0
  | (_, v) :: rest => max v.depth (membersDepth rest)

end

theorem depth_le_membersDepth {m : String × Json} {members : List (String × Json)}
    (h : m ∈ members) : m.2.depth ≤ membersDepth members := by
  induction members with
  | nil => cases h
  | cons n members ih =>
    rw [membersDepth]
    rcases List.mem_cons.1 h with rfl | h
    · exact Nat.le_max_left _ _
    · exact (ih h).trans (Nat.le_max_right _ _)

/-! ## The tokens of a value -/

/-- A sequence of tokens begins with none that could run into a word. -/
def Starts (ts : List Token) : Prop := ∀ t ∈ ts.head?, t.isWord = false

theorem starts_moreItemTokens (items : List Json) (ts : List Token) :
    Starts (moreItemTokens items ++ ts) := by
  intro t ht
  cases items <;> (cases ht; rfl)

theorem starts_moreMemberTokens (members : List (String × Json)) (ts : List Token) :
    Starts (moreMemberTokens members ++ ts) := by
  intro t ht
  cases members <;> (cases ht; rfl)

/-- The tokens of a value are read back before any that begin with no word. -/
def Leads (v : Json) : Prop :=
  ∀ ts, Separate ts → Starts ts → Separate (v.toTokens ++ ts)

theorem separate_moreItemTokens {items : List Json} (hitems : ∀ v ∈ items, v.Leads)
    {ts : List Token} (hts : Separate ts) : Separate (moreItemTokens items ++ ts) := by
  induction items with
  | nil => exact ⟨trivial, fun h => (by cases h), hts⟩
  | cons v items ih =>
    have hrest := ih fun w hw => hitems w (by simp [hw])
    show Separate (.comma :: (v.toTokens ++ moreItemTokens items ++ ts))
    rw [List.append_assoc]
    exact ⟨trivial, fun h => (by cases h),
      hitems v (by simp) _ hrest (starts_moreItemTokens items ts)⟩

theorem separate_moreMemberTokens {members : List (String × Json)}
    (hmembers : ∀ m ∈ members, m.2.Leads) {ts : List Token} (hts : Separate ts) :
    Separate (moreMemberTokens members ++ ts) := by
  induction members with
  | nil => exact ⟨trivial, fun h => (by cases h), hts⟩
  | cons m members ih =>
    obtain ⟨name, v⟩ := m
    have hrest := ih fun w hw => hmembers w (by simp [hw])
    show Separate (.comma :: .text (some name) :: .colon ::
      (v.toTokens ++ moreMemberTokens members ++ ts))
    rw [List.append_assoc]
    exact ⟨trivial, fun h => (by cases h), trivial, fun h => (by cases h), trivial,
      fun h => (by cases h),
      hmembers (name, v) (by simp) _ hrest (starts_moreMemberTokens members ts)⟩

/-- The tokens of a value are read back, no word standing next to another. -/
theorem Exact.leads {v : Json} (h : v.Exact) : v.Leads := by
  induction h with
  | null => exact fun ts hts hstarts => ⟨trivial, fun _ => hstarts, hts⟩
  | bool b => exact fun ts hts hstarts => ⟨trivial, fun _ => hstarts, hts⟩
  | int n hlow hhigh => exact fun ts hts hstarts => ⟨⟨hlow, hhigh⟩, fun _ => hstarts, hts⟩
  | str s => exact fun ts hts _ => ⟨trivial, fun h => (by cases h), hts⟩
  | arr items _ ih =>
    intro ts hts _
    refine ⟨trivial, fun h => (by cases h), ?_⟩
    cases items with
    | nil => exact ⟨trivial, fun h => (by cases h), hts⟩
    | cons v items =>
      have hlater : ∀ w ∈ items, w.Leads := fun w hw => ih w (by simp [hw])
      have hrest := separate_moreItemTokens hlater hts
      show Separate (v.toTokens ++ moreItemTokens items ++ ts)
      rw [List.append_assoc]
      exact ih v (by simp) _ hrest (starts_moreItemTokens items ts)
  | obj members _ ih =>
    intro ts hts _
    refine ⟨trivial, fun h => (by cases h), ?_⟩
    cases members with
    | nil => exact ⟨trivial, fun h => (by cases h), hts⟩
    | cons m members =>
      obtain ⟨name, v⟩ := m
      have hlater : ∀ n ∈ members, n.2.Leads := fun n hn => ih n (by simp [hn])
      have hrest := separate_moreMemberTokens hlater hts
      show Separate (.text (some name) :: .colon :: (v.toTokens ++ moreMemberTokens members ++ ts))
      rw [List.append_assoc]
      exact ⟨trivial, fun h => (by cases h), trivial, fun h => (by cases h),
        ih (name, v) (by simp) _ hrest (starts_moreMemberTokens members ts)⟩

/-- The text of a value is cut into the tokens it was written with. -/
theorem tokens_text {v : Json} (h : v.Exact) : tokens v.text = some v.toTokens := by
  have hseparate := h.leads [] trivial fun t ht => (by cases ht)
  rw [List.append_nil] at hseparate
  exact tokens_ofList hseparate

/-! ## The document of the tokens -/

/-- Where a value may stand, its first token begins its document. -/
theorem step_begin {frames : List Frame} {expect : Expect} {t : Token}
    (hexpect : expect = .value ∨ expect = .valueOrClose) (ht : t ≠ .closeList) :
    Reading.step ⟨frames, expect⟩ t = Reading.begin frames t := by
  rcases hexpect with rfl | rfl
  · rfl
  · cases t <;> first | rfl | exact absurd rfl ht

/-- Members whose names all have a value make an object. -/
theorem closeMembers_named (done : List (String × Document)) :
    closeMembers (done.map fun m => (some m.1, m.2)) = .object done.reverse := by
  have hall : ∀ ms : List (String × Document),
      (ms.map fun m => (some m.1, m.2)).mapM
        (fun member => member.1.map fun name => (name, member.2)) = some ms := by
    intro ms
    induction ms with
    | nil => rfl
    | cons m ms ih => rw [List.map_cons, List.mapM_cons, ih]; rfl
  rw [closeMembers, ← List.map_reverse, hall]

/-- The tokens of a value are taken to its document, wherever a value may stand and nests no deeper
than is allowed. -/
def Taken (v : Json) : Prop :=
  ∀ (frames : List Frame) (expect : Expect) (ts : List Token),
    expect = .value ∨ expect = .valueOrClose → frames.length + v.depth ≤ maxDepth →
    Reading.run ⟨frames, expect⟩ (v.toTokens ++ ts) =
      (Reading.complete v.document frames).bind (·.run ts)

section

variable {frames : List Frame}

theorem run_moreItemTokens {items : List Json} (hitems : ∀ v ∈ items, v.Taken)
    (hdepth : frames.length + 1 + itemsDepth items ≤ maxDepth) (done : List Document)
    (ts : List Token) :
    Reading.run ⟨.list done :: frames, .commaOrClose⟩ (moreItemTokens items ++ ts) =
      (Reading.complete (.list (done.reverse ++ itemDocuments items)) frames).bind (·.run ts) := by
  induction items generalizing done with
  | nil =>
    rw [itemDocuments, List.append_nil]
    rfl
  | cons v items ih =>
    rw [itemsDepth] at hdepth
    have hv := hitems v (by simp) (.list done :: frames) .value (moreItemTokens items ++ ts)
      (.inl rfl) (by simp only [List.length_cons]; omega)
    show Reading.run ⟨.list done :: frames, .value⟩ (v.toTokens ++ moreItemTokens items ++ ts) = _
    rw [List.append_assoc, hv]
    show Reading.run ⟨.list (v.document :: done) :: frames, .commaOrClose⟩ _ = _
    rw [ih (fun w hw => hitems w (by simp [hw])) (by omega), List.reverse_cons, List.append_assoc]
    rfl

theorem run_itemTokens {items : List Json} (hitems : ∀ v ∈ items, v.Taken)
    (hdepth : frames.length + 1 + itemsDepth items ≤ maxDepth) (ts : List Token) :
    Reading.run ⟨.list [] :: frames, .valueOrClose⟩ (itemTokens items ++ ts) =
      (Reading.complete (.list (itemDocuments items)) frames).bind (·.run ts) := by
  cases items with
  | nil => rfl
  | cons v items =>
    rw [itemsDepth] at hdepth
    have hv := hitems v (by simp) (.list [] :: frames) .valueOrClose (moreItemTokens items ++ ts)
      (.inr rfl) (by simp only [List.length_cons]; omega)
    show Reading.run ⟨.list [] :: frames, .valueOrClose⟩
      (v.toTokens ++ moreItemTokens items ++ ts) = _
    rw [List.append_assoc, hv]
    show Reading.run ⟨.list [v.document] :: frames, .commaOrClose⟩ _ = _
    rw [run_moreItemTokens (fun w hw => hitems w (by simp [hw])) (by omega)]
    rfl

/-- The members read so far, as an object that is open keeps them. -/
abbrev named (done : List (String × Document)) : List (Option String × Document) :=
  done.map fun m => (some m.1, m.2)

theorem run_moreMemberTokens {members : List (String × Json)}
    (hmembers : ∀ m ∈ members, m.2.Taken)
    (hdepth : frames.length + 1 + membersDepth members ≤ maxDepth)
    (done : List (String × Document)) (ts : List Token) :
    Reading.run ⟨.object (named done) :: frames, .commaOrClose⟩ (moreMemberTokens members ++ ts) =
      (Reading.complete (.object (done.reverse ++ memberDocuments members)) frames).bind
        (·.run ts) := by
  induction members generalizing done with
  | nil =>
    rw [memberDocuments, List.append_nil, ← closeMembers_named]
    rfl
  | cons m members ih =>
    obtain ⟨name, v⟩ := m
    rw [membersDepth] at hdepth
    have hv := hmembers (name, v) (by simp) (.member (named done) (some name) :: frames) .value
      (moreMemberTokens members ++ ts) (.inl rfl) (by simp only [List.length_cons]; omega)
    show Reading.run ⟨.member (named done) (some name) :: frames, .value⟩
      (v.toTokens ++ moreMemberTokens members ++ ts) = _
    rw [List.append_assoc, hv]
    show Reading.run ⟨.object (named ((name, v.document) :: done)) :: frames, .commaOrClose⟩ _ = _
    rw [ih (fun w hw => hmembers w (by simp [hw])) (by omega), List.reverse_cons,
      List.append_assoc]
    rfl

theorem run_memberTokens {members : List (String × Json)} (hmembers : ∀ m ∈ members, m.2.Taken)
    (hdepth : frames.length + 1 + membersDepth members ≤ maxDepth) (ts : List Token) :
    Reading.run ⟨.object [] :: frames, .nameOrClose⟩ (memberTokens members ++ ts) =
      (Reading.complete (.object (memberDocuments members)) frames).bind (·.run ts) := by
  cases members with
  | nil => rfl
  | cons m members =>
    obtain ⟨name, v⟩ := m
    rw [membersDepth] at hdepth
    have hv := hmembers (name, v) (by simp) (.member [] (some name) :: frames) .value
      (moreMemberTokens members ++ ts) (.inl rfl) (by simp only [List.length_cons]; omega)
    show Reading.run ⟨.member [] (some name) :: frames, .value⟩
      (v.toTokens ++ moreMemberTokens members ++ ts) = _
    rw [List.append_assoc, hv]
    show Reading.run ⟨.object (named [(name, v.document)]) :: frames, .commaOrClose⟩ _ = _
    rw [run_moreMemberTokens (fun w hw => hmembers w (by simp [hw])) (by omega)]
    rfl

end

/-- The tokens of a value are taken to its document. -/
theorem Exact.taken {v : Json} (h : v.Exact) : v.Taken := by
  induction h with
  | null | bool | int | str =>
    intro frames expect ts hexpect _
    show (Reading.step _ _).bind _ = _
    rw [step_begin hexpect (by simp)]
    rfl
  | arr items _ ih =>
    intro frames expect ts hexpect hdepth
    rw [depth] at hdepth
    show (Reading.step _ .openList).bind _ = _
    rw [step_begin hexpect (by simp), Reading.begin, Reading.push, if_pos (by omega)]
    exact run_itemTokens ih (by omega) ts
  | obj members _ ih =>
    intro frames expect ts hexpect hdepth
    rw [depth] at hdepth
    show (Reading.step _ .openObject).bind _ = _
    rw [step_begin hexpect (by simp), Reading.begin, Reading.push, if_pos (by omega)]
    exact run_memberTokens ih (by omega) ts

/-- The text of a value is read as the document that writes the value down. -/
theorem read_text {v : Json} (h : v.Exact) (hdepth : v.depth ≤ maxDepth) :
    Document.read v.text = some v.document := by
  have hrun := h.taken [] .value [] (.inl rfl) (by simpa using hdepth)
  rw [List.append_nil] at hrun
  rw [Document.read, tokens_text h, Option.bind_some, Document.ofTokens, hrun]
  rfl

/-! ## The value of the document -/

theorem values?_itemDocuments {items : List Json}
    (hitems : ∀ v ∈ items, v.document.value? = some v) :
    Document.values? (itemDocuments items) = some items := by
  induction items with
  | nil => rfl
  | cons v items ih =>
    rw [itemDocuments, Document.values?, hitems v (by simp), ih fun w hw => hitems w (by simp [hw])]
    rfl

theorem memberValues?_memberDocuments {members : List (String × Json)}
    (hmembers : ∀ m ∈ members, m.2.document.value? = some m.2) :
    Document.memberValues? (memberDocuments members) = some members := by
  induction members with
  | nil => rfl
  | cons m members ih =>
    obtain ⟨name, v⟩ := m
    rw [memberDocuments, Document.memberValues?, hmembers (name, v) (by simp),
      ih fun w hw => hmembers w (by simp [hw])]
    rfl

/-- The document of a value has that value. -/
theorem Plain.value?_document {v : Json} (h : v.Plain) : v.document.value? = some v := by
  induction h with
  | null | bool | int | str => rfl
  | arr items _ ih =>
    rw [document, Document.value?, values?_itemDocuments ih]
    rfl
  | obj members hsorted _ ih =>
    rw [document, Document.value?, memberValues?_memberDocuments ih, Option.map_some,
      Members.ofList_of_sorted hsorted]

/-- A value is read back from its text. -/
theorem Plain.read_text {v : Json} (h : v.Plain) (hdepth : v.depth ≤ maxDepth) :
    Json.read v.text = some v := by
  rw [Json.read, Json.read_text h.exact hdepth, Option.bind_some, h.value?_document]

end Json

end ChainIndex
