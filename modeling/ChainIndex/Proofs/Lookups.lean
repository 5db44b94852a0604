import ChainIndex.Store.Memory

/-!
# Records under their keys

The look-up laws of the lists that a store is made of, and what a write that succeeds has done.
-/

namespace ChainIndex.Store.Memory

/-! ## Lists of records with a key -/

section

variable {α : Type} {p q : α → Bool} {f : α → α}

theorem lookup_putEntry_self (key : String) (value : α) (entries : List (String × α)) :
    (putEntry key value entries).lookup key = some value := by
  induction entries with
  | nil => simp [putEntry]
  | cons entry rest ih =>
    obtain ⟨k, v⟩ := entry
    by_cases hk : k = key
    · simp [putEntry, hk]
    · have hne : (key == k) = false := beq_eq_false_iff_ne.2 (Ne.symm hk)
      simp [putEntry, hk, List.lookup_cons, hne, ih]

theorem lookup_putEntry_of_ne {key other : String} (value : α) (entries : List (String × α))
    (h : other ≠ key) : (putEntry key value entries).lookup other = entries.lookup other := by
  have hother : (other == key) = false := beq_eq_false_iff_ne.2 h
  induction entries with
  | nil => simp [putEntry, List.lookup_cons, hother]
  | cons entry rest ih =>
    obtain ⟨k, v⟩ := entry
    by_cases hk : k = key
    · subst hk
      simp [putEntry, List.lookup_cons, hother]
    · simp [putEntry, hk, List.lookup_cons, ih]

/-- What is listed under a name is found, if the names are different. -/
theorem lookup_of_mem {key : String} {value : α} {entries : List (String × α)}
    (hnames : (entries.map (·.1)).Nodup) (hmem : (key, value) ∈ entries) :
    entries.lookup key = some value := by
  obtain ⟨before, after, rfl⟩ := List.append_of_mem hmem
  rw [List.map_append, List.nodup_append] at hnames
  obtain ⟨-, -, hapart⟩ := hnames
  refine List.lookup_eq_some_iff.2 ⟨before, after, rfl, fun entry he => ?_⟩
  simpa using fun heq => hapart entry.1 (List.mem_map_of_mem he) key (by simp) heq.symm

/-- A name that is put among others is new or has been there. -/
theorem keys_putEntry (key : String) (value : α) (entries : List (String × α)) :
    (putEntry key value entries).map (·.1) =
      if key ∈ entries.map (·.1) then entries.map (·.1) else entries.map (·.1) ++ [key] := by
  induction entries with
  | nil => rfl
  | cons entry rest ih =>
    obtain ⟨k, v⟩ := entry
    by_cases hk : k = key
    · simp [putEntry, hk]
    · simp only [putEntry, if_neg hk, List.map_cons, ih, List.mem_cons, Ne.symm hk, false_or]
      split <;> rfl

/-- What is put under a new name goes to the end. -/
theorem putEntry_of_none {key : String} {value : α} {entries : List (String × α)}
    (h : entries.lookup key = none) : putEntry key value entries = entries ++ [(key, value)] := by
  induction entries with
  | nil => rfl
  | cons entry rest ih =>
    obtain ⟨k, v⟩ := entry
    by_cases hk : key = k
    · simp [hk] at h
    · simp only [List.lookup_cons, beq_eq_false_iff_ne.2 hk] at h
      simp only [putEntry, if_neg (Ne.symm hk), ih h, List.cons_append]

/-- A record is found under a key if one has it. -/
theorem isSome_find?_iff {κ : Type} [BEq κ] [LawfulBEq κ] {key : α → κ} {k : κ} {l : List α} :
    (l.find? (key · == k)).isSome ↔ k ∈ l.map key := by
  simp [List.find?_isSome]

/-- What is found under a key is found where there are more keys. -/
theorem isSome_find?_of_subset {κ : Type} [BEq κ] [LawfulBEq κ] {key : α → κ} {k : κ}
    {l l' : List α} (hkeys : l.map key ⊆ l'.map key) (h : (l.find? (key · == k)).isSome) :
    (l'.find? (key · == k)).isSome :=
  isSome_find?_iff.2 (hkeys (isSome_find?_iff.1 h))

/-- What a property finds is not affected by a change that the property does not see. -/
theorem find?_updateFirst_of_same (l : List α) (h : ∀ a ∈ l, p a → q (f a) = q a) :
    ((updateFirst p f l).find? q).isSome = (l.find? q).isSome := by
  induction l with
  | nil => rfl
  | cons a rest ih =>
    by_cases hp : p a
    · have hq : q (f a) = q a := h a (by simp) hp
      by_cases hqa : q a
      · simp [updateFirst, hp, hq, hqa]
      · simp [updateFirst, hp, hq, hqa]
    · have hrest := ih fun b hb => h b (by simp [hb])
      by_cases hqa : q a
      · simp [updateFirst, hp, hqa]
      · simp [updateFirst, hp, hqa, hrest]

/-- The first record with a property is the one that is changed. -/
theorem find?_updateFirst_self (l : List α) (h : ∀ a ∈ l, p a → p (f a)) :
    (updateFirst p f l).find? p = (l.find? p).map f := by
  induction l with
  | nil => rfl
  | cons a rest ih =>
    by_cases hp : p a
    · simp [updateFirst, hp, h a (by simp) hp]
    · simp [updateFirst, hp, ih fun b hb => h b (by simp [hb])]

/-- A record that does not have the property of those that are changed is found as before. -/
theorem find?_updateFirst_of_ne (l : List α) (hp : ∀ a ∈ l, p a → q a = false)
    (hf : ∀ a ∈ l, p a → q (f a) = false) : (updateFirst p f l).find? q = l.find? q := by
  induction l with
  | nil => rfl
  | cons a rest ih =>
    by_cases hpa : p a
    · simp [updateFirst, hpa, hp a (by simp) hpa, hf a (by simp) hpa]
    · have hrest := ih (fun b hb => hp b (by simp [hb])) (fun b hb => hf b (by simp [hb]))
      by_cases hqa : q a
      · simp [updateFirst, hpa, hqa]
      · simp [updateFirst, hpa, hqa, hrest]

/-- Writing back the record that was found changes nothing. -/
theorem updateFirst_eq_self {l : List α} {a : α} (h : l.find? p = some a) :
    updateFirst p (fun _ => a) l = l := by
  induction l with
  | nil => simp at h
  | cons b rest ih =>
    by_cases hp : p b
    · have hab : b = a := by simpa [hp] using h
      subst hab
      simp [updateFirst, hp]
    · simp only [List.find?_cons, hp] at h
      simp [updateFirst, hp, ih h]

/-- What lies in the changed list has been there, or has been changed. -/
theorem mem_updateFirst {l : List α} {a : α} (h : a ∈ updateFirst p f l) :
    a ∈ l ∨ ∃ b ∈ l, p b ∧ a = f b := by
  induction l with
  | nil => cases h
  | cons b rest ih =>
    unfold updateFirst at h
    split at h
    · rename_i hb
      rcases List.mem_cons.1 h with rfl | h
      · exact .inr ⟨b, by simp, hb, rfl⟩
      · exact .inl (List.mem_cons_of_mem _ h)
    · rcases List.mem_cons.1 h with rfl | h
      · exact .inl (by simp)
      · rcases ih h with h | ⟨c, hc, hpc, rfl⟩
        · exact .inl (List.mem_cons_of_mem _ h)
        · exact .inr ⟨c, List.mem_cons_of_mem _ hc, hpc, rfl⟩

/-- What has been there is there, or has been found and changed. -/
theorem mem_updateFirst_of_mem {l : List α} {a : α} (h : a ∈ l) :
    a ∈ updateFirst p f l ∨ l.find? p = some a ∧ f a ∈ updateFirst p f l := by
  induction l with
  | nil => cases h
  | cons b rest ih =>
    unfold updateFirst
    by_cases hb : p b
    · rcases List.mem_cons.1 h with rfl | h
      · exact .inr ⟨by simp [hb], by simp [hb]⟩
      · exact .inl (by simp [hb, h])
    · rcases List.mem_cons.1 h with rfl | h
      · exact .inl (by simp [hb])
      · rcases ih h with h | ⟨hfound, h⟩
        · exact .inl (by simp [hb, h])
        · exact .inr ⟨by simp [hb, hfound], by simp [hb, h]⟩

theorem updateFirst_map {β : Type} (g : α → β) {p' : β → Bool} {f' : β → β} (l : List α)
    (hp : ∀ a ∈ l, p' (g a) = p a) (hf : ∀ a ∈ l, p a → f' (g a) = g (f a)) :
    updateFirst p' f' (l.map g) = (updateFirst p f l).map g := by
  induction l with
  | nil => rfl
  | cons a rest ih =>
    have hpa := hp a (by simp)
    have hrest := ih (fun b hb => hp b (by simp [hb])) (fun b hb => hf b (by simp [hb]))
    by_cases h : p a
    · simp [updateFirst, hpa, h, hf a (by simp) h]
    · simp [updateFirst, hpa, h, hrest]

/-- What a change leaves alone is the same in every record. -/
theorem map_updateFirst {β : Type} {g : α → β} (l : List α) (h : ∀ a, p a → g (f a) = g a) :
    (updateFirst p f l).map g = l.map g := by
  induction l with
  | nil => rfl
  | cons a rest ih =>
    unfold updateFirst
    split
    · rw [List.map_cons, h a ‹_›, List.map_cons]
    · rw [List.map_cons, ih, List.map_cons]

/-- Where one record is changed or added, what the change leaves alone gets at most one more. -/
theorem map_upsert {β : Type} {g : α → β} (a : α) (l : List α) (h : ∀ b, p b → g (f b) = g b) :
    (upsert p f a l).map g = if l.any p then l.map g else l.map g ++ [g a] := by
  unfold upsert
  split
  · exact map_updateFirst l h
  · rw [List.map_append, List.map_singleton]

/-- Where one record is changed or added, it is the only one that may be new. -/
theorem mem_upsert {a b : α} {l : List α} (h : b ∈ upsert p f a l)
    (hf : ∀ old, p old → f old = a) : b ∈ l ∨ b = a := by
  unfold upsert at h
  split at h
  · rcases mem_updateFirst h with h | ⟨old, -, hold, rfl⟩
    · exact .inl h
    · exact .inr (hf old hold)
  · exact (List.mem_append.1 h).imp_right List.mem_singleton.1

/-- A key that no record has can be added to keys that are different. -/
theorem nodup_concat {κ : Type} {key : α → κ} {l : List α} {a : α} (hl : (l.map key).Nodup)
    (hfree : ∀ b ∈ l, key b ≠ key a) : ((l ++ [a]).map key).Nodup := by
  rw [List.map_append, List.nodup_append]
  refine ⟨hl, by simp, fun k hk k' hk' hsame => ?_⟩
  obtain ⟨b, hb, rfl⟩ := List.mem_map.1 hk
  obtain ⟨c, hc, rfl⟩ := List.mem_map.1 hk'
  rw [List.mem_singleton.1 hc] at hsame
  exact hfree b hb hsame

/-- A key that is added only if it is new leaves the keys different. -/
theorem nodup_ite {c : Prop} [Decidable c] {l : List α} {a : α} (hl : l.Nodup)
    (hfree : ¬c → a ∉ l) : (if c then l else l ++ [a]).Nodup := by
  split
  · exact hl
  · rename_i hc
    refine List.nodup_append.2 ⟨hl, by simp, fun b hb b' hb' hsame => hfree hc ?_⟩
    rwa [← List.mem_singleton.1 hb', ← hsame]

end

theorem mem_insertByNumber {block b : BlockRecord} {blocks : List BlockRecord} :
    b ∈ insertByNumber block blocks ↔ b = block ∨ b ∈ blocks := by
  induction blocks with
  | nil => simp [insertByNumber]
  | cons c rest ih =>
    simp only [insertByNumber]
    split
    · simp
    · simp only [List.mem_cons, ih]
      constructor
      · rintro (h | h | h) <;> simp [h]
      · rintro (h | h | h) <;> simp [h]

/-- An inserted block leaves the others in their order. -/
theorem sublist_insertByNumber (block : BlockRecord) (blocks : List BlockRecord) :
    blocks.Sublist (insertByNumber block blocks) := by
  induction blocks with
  | nil => exact List.nil_sublist _
  | cons b rest ih =>
    unfold insertByNumber
    split
    · exact List.sublist_cons_self _ _
    · exact ih.cons_cons b

/-- A block whose number is free goes between the numbers below and above its own. -/
theorem ascending_insertByNumber {block : BlockRecord} {blocks : List BlockRecord}
    (h : blocks.Pairwise (·.number < ·.number)) (hfree : ∀ b ∈ blocks, b.number ≠ block.number) :
    (insertByNumber block blocks).Pairwise (·.number < ·.number) := by
  induction blocks with
  | nil => exact List.pairwise_singleton _ _
  | cons b rest ih =>
    obtain ⟨hb, hrest⟩ := List.pairwise_cons.1 h
    unfold insertByNumber
    split
    · rename_i hlt
      refine List.pairwise_cons.2 ⟨fun c hc => ?_, h⟩
      rcases List.mem_cons.1 hc with rfl | hc
      · exact hlt
      · exact Int.lt_trans hlt (hb c hc)
    · rename_i hle
      refine List.pairwise_cons.2 ⟨fun c hc => ?_, ih hrest fun c hc => hfree c (by simp [hc])⟩
      rcases mem_insertByNumber.1 hc with rfl | hc
      · have hne := hfree b (by simp)
        omega
      · exact hb c hc

/-- An inserted block is the only one that is found in a new way. -/
theorem find?_insertByNumber {block : BlockRecord} {blocks : List BlockRecord} {number : Int}
    (h : number ≠ block.number) :
    (insertByNumber block blocks).find? (·.number == number) =
      blocks.find? (·.number == number) := by
  have hne : (block.number == number) = false := beq_eq_false_iff_ne.2 (Ne.symm h)
  induction blocks with
  | nil => simp [insertByNumber, hne]
  | cons c rest ih =>
    simp only [insertByNumber]
    split
    · simp [List.find?_cons, hne]
    · simp [List.find?_cons, ih]

/-- An inserted block is found under its number if that was free. -/
theorem find?_insertByNumber_self {block : BlockRecord} {blocks : List BlockRecord}
    (h : blocks.find? (·.number == block.number) = none) :
    (insertByNumber block blocks).find? (·.number == block.number) = some block := by
  induction blocks with
  | nil => simp [insertByNumber]
  | cons c rest ih =>
    have hc : ¬(c.number == block.number) := List.find?_eq_none.1 h c (by simp)
    simp only [List.find?_cons, hc] at h
    simp only [insertByNumber]
    split
    · simp
    · simp [hc, ih h]

/-! ## Writes that succeed -/

section

variable {m m' : Memory}

/-- A record that could be added was free to be added. -/
theorem of_guard {c : Prop} [Decidable c] {e : Error} {m₁ : Memory}
    (h : (if c then (.error e : Except Error Memory) else .ok m₁) = .ok m') : ¬c ∧ m' = m₁ := by
  split at h
  · cases h
  · exact ⟨‹_›, (Except.ok.inj h).symm⟩

/-- A record that could be added was added, whatever the condition was. -/
theorem of_free {c : Prop} [Decidable c] {e : Error} {m₁ : Memory}
    (h : (if c then (.error e : Except Error Memory) else .ok m₁) = .ok m') : m' = m₁ :=
  (of_guard h).2

/-- A row that could be added was added to a table that is there. -/
theorem of_addRow {name : String} {row : Row} (h : m.addRow name row = .ok m') :
    ∃ table, m.table? name = some table ∧
      m' = { m with
        tables := putEntry name { table with rows := table.rows ++ [row] } m.tables } := by
  unfold addRow at h
  split at h
  · cases h
  · split at h
    · cases h
    · rename_i table htable
      split at h
      · cases h
      · exact ⟨table, htable, (Except.ok.inj h).symm⟩

/-- A row that could be added uses the columns of its table. -/
theorem columns_of_addRow {name : String} {row : Row} {table : Table}
    (h : m.addRow name row = .ok m') (htable : m.table? name = some table) :
    ∀ cell ∈ row, ∃ column ∈ table.columns, column.name = cell.1 := by
  unfold addRow at h
  rw [htable] at h
  split at h
  · cases h
  · dsimp only at h
    split at h
    · cases h
    · rename_i hnone
      intro cell hcell
      simpa using List.find?_eq_none.1 hnone cell hcell

/-- A write that succeeds leaves the store that it has made. -/
theorem of_written {r : Except Error Memory} {u : Unit} (h : (m.written r).1 = .ok u) :
    r = .ok (m.written r).2 := by
  cases r with
  | ok m' => rfl
  | error e => cases h

/-- Whether or not a write succeeds, what it keeps is kept. -/
theorem written_keeps {P : Memory → Prop} {r : Except Error Memory} (hm : P m)
    (h : ∀ m', r = .ok m' → P m') : P (m.written r).2 := by
  cases r with
  | ok m' => exact h m' rfl
  | error e => exact hm

end

end ChainIndex.Store.Memory
