import ChainIndex.Proofs.HoldingUnits
import ChainIndex.Proofs.TokenRecords
import ChainIndex.Proofs.Unfolding

/-!
# The life of tokens

A scanner that goes through a chain once has a token on record from the first operation on that
registers the contract as one. The record stays, and keeps what the registration says; the state
follows the receipts, and name and symbol come and go together.
-/

namespace ChainIndex

open Observer (describeToken)
open Scan
open Store (Memory)

variable {ω : Type} {env : Surroundings ω} {s : Situation ω}

/-! ## How the records of tokens change -/

/-- A token has a name on record where it has a symbol, and nowhere else. -/
def TokenRecord.Paired (token : TokenRecord) : Prop := token.name.isSome = token.symbol.isSome

/-- How the records of tokens can change at a stage. -/
inductive TokenStep (m m' : Memory) : Prop where
  | same (h : m'.tokens = m.tokens)
  | recorded {token : TokenRecord} (hfree : m.token? token.id = none) (hpaired : token.Paired)
      (h : m'.tokens = m.tokens ++ [token])
  | rewritten (old token : TokenRecord) (hfound : m.token? token.id = some old)
      (horigin : token.origin = old.origin) (hpaired : old.Paired → token.Paired)
      (h : m'.tokens = (m.setToken token).tokens)

namespace TokenStep

variable {m m' : Memory}

/-- A token has one record. -/
theorem unique (h : TokenStep m m') (hids : (m.tokens.map (·.id)).Nodup) :
    (m'.tokens.map (·.id)).Nodup := by
  cases h with
  | same h => rwa [h]
  | @recorded token hfree _ h =>
    rw [h]
    refine Store.Memory.nodup_concat hids fun other hother hid => ?_
    exact List.find?_eq_none.1 hfree other hother (beq_iff_eq.2 hid)
  | rewritten _ _ _ _ _ h => rwa [h, Store.Memory.ids_setToken]

/-- Name and symbol come and go together. -/
theorem paired (h : TokenStep m m') (hpaired : ∀ token ∈ m.tokens, token.Paired) :
    ∀ token ∈ m'.tokens, token.Paired := by
  intro token htoken
  cases h with
  | same h => exact hpaired token (h ▸ htoken)
  | recorded _ hnew h =>
    rw [h] at htoken
    rcases List.mem_append.1 htoken with htoken | htoken
    · exact hpaired token htoken
    · rwa [List.mem_singleton.1 htoken]
  | rewritten old new hfound _ hnew h =>
    rw [h] at htoken
    rcases Store.Memory.mem_updateFirst htoken with htoken | ⟨_, _, _, rfl⟩
    · exact hpaired token htoken
    · exact hnew (hpaired old (List.mem_of_find?_eq_some hfound))

/-- A record stays, and keeps what the registration says. -/
theorem kept (h : TokenStep m m') {token : TokenRecord} (htoken : token ∈ m.tokens) :
    ∃ token' ∈ m'.tokens, token'.origin = token.origin := by
  cases h with
  | same h => exact ⟨token, h ▸ htoken, rfl⟩
  | recorded _ _ h => exact ⟨token, h ▸ List.mem_append_left _ htoken, rfl⟩
  | rewritten old new hfound horigin _ h =>
    rw [h]
    rcases Store.Memory.mem_updateFirst_of_mem htoken with hstill | ⟨hold, hnew⟩
    · exact ⟨token, hstill, rfl⟩
    · cases hfound.symm.trans hold
      exact ⟨new, hnew, horigin⟩

end TokenStep

namespace Scan

/-! ## Who writes the records -/

section

variable {chain : Chain} {seen : List Observation} {first cursor : Nat}

/-- A scanner has on record for tokens what follows from some operations. -/
structure Following (seen : List Observation) (s : Situation ω) : Prop where
  sound : Sound s
  records : TokenRecords seen s.memory.history.tokens

theorem Following.withWorld (h : Following seen s) (world : ω) :
    Following seen { s with world } where
  sound := h.sound.withWorld world
  records := h.records

end

/-! ## Tokens -/

/-- Every token has one record, its name and symbol come together, and whatever was on record after
some stages is on record still, as it was registered. -/
structure TokensKept (done : List (Stage ω)) (m : Memory) : Prop where
  unique : (m.tokens.map (·.id)).Nodup
  paired : ∀ token ∈ m.tokens, token.Paired
  kept : ∀ x ∈ done, ∀ token ∈ x.after.memory.tokens, ∃ token' ∈ m.tokens,
    token'.origin = token.origin

theorem TokensKept.step {done : List (Stage ω)} {x : Stage ω}
    (h : TokensKept done x.before.memory)
    (hstep : TokenStep x.before.memory x.after.memory) :
    TokensKept (done ++ [x]) x.after.memory where
  unique := hstep.unique h.unique
  paired := hstep.paired h.paired
  kept y hy token htoken := by
    rcases List.mem_append.1 hy with hy | hy
    · obtain ⟨token', htoken', horigin⟩ := h.kept y hy token htoken
      obtain ⟨token'', htoken'', horigin'⟩ := hstep.kept htoken'
      exact ⟨token'', htoken'', horigin'.trans horigin⟩
    · rw [List.mem_singleton.1 hy] at htoken
      exact ⟨token, htoken, rfl⟩

/-- The tokens of a store, after some operations have been processed. -/
structure TokensFollow (seen : List Observation) (m : Memory) : Prop where
  /-- A contract has a record if one of the operations registers it as a token. -/
  present : ∀ contract, (m.token? contract).isSome ↔ ∃ op ∈ seen, op.RegistersToken contract
  unique : (m.tokens.map (·.id)).Nodup
  /-- The record says what the first of these operations says, and the state follows the
  receipts. -/
  life : ∀ token ∈ m.tokens, TokenLife seen token
  paired : ∀ token ∈ m.tokens, token.Paired

/-- What a scanner has on record for tokens is what follows from the operations. -/
theorem Following.tokens {seen : List Observation} (h : Following seen s)
    (hpaired : ∀ token ∈ s.memory.tokens, token.Paired) : TokensFollow seen s.memory where
  present contract := by
    have hids : (s.memory.token? contract).isSome ↔
        contract ∈ s.memory.history.tokens.map (·.id) := by
      rw [← Option.isSome_map (f := TokenRecord.registered), ← Store.Memory.history_token?,
        Memory.token?, List.find?_isSome, List.mem_map]
      simp only [beq_iff_eq]
    rw [hids]
    constructor
    · intro hmem
      obtain ⟨token, htoken, rfl⟩ := List.mem_map.1 hmem
      obtain ⟨earlier, op, later, r, rfl, -, hregisters, hcontract, -⟩ :=
        h.records.life token htoken
      exact ⟨op, by simp, r, hregisters, hcontract⟩
    · rintro ⟨op, hop, hregisters⟩
      exact h.records.complete op hop _ hregisters
  unique := by
    have hids : s.memory.history.tokens.map (·.id) = s.memory.tokens.map (·.id) := by
      simp [Store.Memory.history]
    exact hids ▸ h.records.unique
  life token htoken := h.records.life token.registered (List.mem_map_of_mem htoken)
  paired := hpaired

end Scan

end ChainIndex
