import ChainIndex.Proofs.Entering

/-!
# The checkpoint as it is stored

A number that was written as the checkpoint is read back, and every number that a scan writes fits
the word that it is read as. `Checkpoint.stored` is what a store says of the checkpoint, where none
counts as zero; the procedures of the checkpoint are described by it.
-/

namespace ChainIndex.Scan.Checkpoint

open Store (Memory)

/-! ## Texts of numbers -/

theorem le_ofDigitChars (cs : List Char) (acc : Nat) : acc ≤ Nat.ofDigitChars 10 cs acc := by
  induction cs generalizing acc with
  | nil => simp
  | cons c cs ih =>
    rw [Nat.ofDigitChars_cons]
    have hrest := ih (10 * acc + (c.toNat - '0'.toNat))
    omega

/-- Digits are read for the number that they write, if it is not too large. -/
theorem readWordFrom_digits {high : Nat} {cs : List Char} (hcs : ∀ c ∈ cs, c.isDigit)
    {acc : Nat} (h : Nat.ofDigitChars 10 cs acc ≤ high) :
    Text.readWordFrom high acc cs = .ok (Nat.ofDigitChars 10 cs acc) := by
  induction cs generalizing acc with
  | nil => simp [Text.readWordFrom]
  | cons c cs ih =>
    have hdigit : c.isDigit := hcs c (by simp)
    rw [Nat.ofDigitChars_cons] at h ⊢
    have hstep : acc * 10 + Text.digitValue c = 10 * acc + (c.toNat - '0'.toNat) := by
      unfold Text.digitValue
      omega
    have hfits : 10 * acc + (c.toNat - '0'.toNat) ≤ high :=
      Nat.le_trans (le_ofDigitChars cs _) h
    simp only [Text.readWordFrom, hdigit, Bool.not_true, Bool.false_eq_true, if_false, hstep,
      if_pos hfits]
    exact ih (fun d hd => hcs d (by simp [hd])) h

theorem not_isBlank_of_isDigit {c : Char} (h : c.isDigit) : Text.isBlank c = false := by
  have hrange : 48 ≤ c.toNat ∧ c.toNat ≤ 57 := by
    simp only [Char.isDigit, Bool.and_eq_true, decide_eq_true_eq] at h
    exact ⟨h.1, h.2⟩
  unfold Text.isBlank
  simp only [Bool.or_eq_false_iff, Bool.and_eq_false_iff, decide_eq_false_iff_not,
    beq_eq_false_iff_ne]
  omega

/-- A checkpoint that was written is read back. -/
theorem ofText_text {n : Nat} (h : n ≤ word64Max) : ofText (text n) = .ok n := by
  have hdigits : ∀ c ∈ Nat.toDigits 10 n, c.isDigit := by
    intro c hc
    exact Nat.isDigit_of_mem_toDigits (by decide) (by decide) hc
  have htrim : Text.trim (text n) = text n := by
    unfold Text.trim text
    rw [String.toList_ofList, Text.trimChars_eq_self]
    · intro c hc
      exact not_isBlank_of_isDigit (hdigits c (List.mem_of_head? hc))
    · intro c hc
      exact not_isBlank_of_isDigit (hdigits c (List.mem_of_getLast? hc))
  have hread : Text.readWordFrom word64Max 0 (Nat.toDigits 10 n) = .ok n := by
    rw [readWordFrom_digits hdigits (by simpa using h)]
    simp
  have hword : Text.readWord word64Max (text n) = .ok n := by
    unfold Text.readWord text
    rw [String.toList_ofList]
    -- the digits of a number are there, and the first of them is no sign
    cases hlist : Nat.toDigits 10 n with
    | nil => exact absurd hlist Nat.toDigits_ne_nil
    | cons c cs =>
      have hc : c ≠ '+' := by
        rintro rfl
        have hplus := hdigits '+' (by simp [hlist])
        exact absurd hplus (by decide)
      rw [hlist] at hread
      simp [hc, hread]
  unfold ofText
  rw [htrim, hword]

theorem readWordFrom_le {high : Nat} {cs : List Char} {acc n : Nat} (hacc : acc ≤ high)
    (h : Text.readWordFrom high acc cs = .ok n) : n ≤ high := by
  induction cs generalizing acc with
  | nil =>
    cases h
    exact hacc
  | cons c cs ih =>
    unfold Text.readWordFrom at h
    split at h
    · cases h
    · split at h
      · exact ih ‹_› h
      · cases h

/-- A checkpoint that is read is a word. -/
theorem ofText_le {value : String} {n : Nat} (h : ofText value = .ok n) : n ≤ word64Max := by
  unfold ofText at h
  cases hread : Text.readWord word64Max (Text.trim value) with
  | error fault =>
    rw [hread] at h
    cases h
  | ok m =>
    rw [hread] at h
    cases h
    unfold Text.readWord at hread
    split at hread
    · cases hread
    · cases hread
    · exact readWordFrom_le (Nat.zero_le _) hread
    · exact readWordFrom_le (Nat.zero_le _) hread

/-- Numbers of blocks that are stored are far below the greatest word. -/
theorem le_word64Max {n : Nat} (h : (n : Int) ≤ int64Max) : n ≤ word64Max := by
  unfold int64Max at h
  unfold word64Max
  omega

theorem succ_mod_word {n : Nat} (h : (n : Int) ≤ int64Max) :
    n.succ % (word64Max + 1) = n + 1 := by
  apply Nat.mod_eq_of_lt
  unfold int64Max at h
  unfold word64Max
  omega

/-! ## What is stored -/

/-- The checkpoint of a store, zero if there is none. -/
def stored (m : Memory) : Except Error Nat :=
  match m.configs.lookup key with
  | none => .ok 0
  | some value => ofText value

theorem stored_of_text {m : Memory} {n : Nat} (h : m.configs.lookup key = some (text n))
    (hn : n ≤ word64Max) : stored m = .ok n := by
  unfold stored
  rw [h]
  exact ofText_text hn

theorem stored_le {m : Memory} {n : Nat} (h : stored m = .ok n) : n ≤ word64Max := by
  unfold stored at h
  split at h
  · cases h
    exact Nat.zero_le _
  · exact ofText_le h

theorem stored_congr {m m' : Memory} (h : m'.configs = m.configs) : stored m' = stored m := by
  unfold stored
  rw [h]

theorem stored_putConfig (m : Memory) {n : Nat} (hn : n ≤ word64Max) :
    stored (m.putConfig key (text n)) = .ok n :=
  stored_of_text (Store.Memory.lookup_putEntry_self _ _ _) hn

/-- Only a write of the config changes what is stored. -/
theorem answer_configs {request : Store.Request} (m : Memory)
    (h : (Request.store request).withinBlock) :
    (Memory.answer request m).2.configs = m.configs := by
  cases request with
  | putConfig => cases h
  | addBlock | addTransaction | addOperation | addReceipt | addAccount | addToken | addTransfer =>
    apply Store.Memory.written_keeps (P := (·.configs = m.configs)) rfl
    intro m' hadd
    rw [Store.Memory.of_free hadd]
  | addRow name row =>
    apply Store.Memory.written_keeps (P := (·.configs = m.configs)) rfl
    intro m' hadd
    obtain ⟨table, -, rfl⟩ := Store.Memory.of_addRow hadd
    rfl
  | addTable | addAsset =>
    simp only [Memory.answer, Memory.addTable, Memory.addAsset]
    split <;> rfl
  | hasRow =>
    simp only [Memory.answer]
    split <;> rfl
  | _ => rfl

/-- The config does not change while a block is processed. -/
theorem configs_answer {ω : Type} (env : Surroundings ω) {request : Request}
    (h : request.withinBlock) (s : Situation ω) :
    (env.answer request s).2.memory.configs = s.memory.configs := by
  cases request with
  | store request =>
    obtain ⟨detail, world, hstore⟩ | ⟨world, hstore⟩ := env.answer_store_cases request s
    · rw [hstore]
    · rw [hstore]
      exact answer_configs s.memory h
  | node | cache | cancelled => rfl

/-- Nor does what is stored. -/
theorem stored_answer {ω : Type} (env : Surroundings ω) {request : Request}
    (h : request.withinBlock) (s : Situation ω) :
    stored (env.answer request s).2.memory = stored s.memory :=
  stored_congr (configs_answer env h s)

end ChainIndex.Scan.Checkpoint
