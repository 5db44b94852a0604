import ChainIndex.Proofs.Rounds

/-!
# The history does not depend on answers about the present

Two nodes that give the same receipts may answer everything that is asked about the present in
different ways: what contracts say, which assets there are, what an address holds. A block that is
processed with the one or the other comes to the same end and leaves the same history. The answers
show in what tokens say of themselves, in assets, balances and holdings, and nowhere else.
-/

namespace ChainIndex.Scan

open Store (Memory)

/-- Steady surroundings are calm, if no answer about the present is a failure of a store. -/
theorem calm_steady {answers : Answers}
    (hlive : ∀ request e, request.isLive → answers request = .error e →
      e.isStoreFailure = false) :
    (Surroundings.steady answers).Calm fun transaction => answers (.receipts transaction) where
  receipts _ _ := rfl
  live request _ e := hlive request e
  store _ _ := rfl

/-- A scanner that forgets everything is as sound as before. -/
theorem Reachable.sound_of_cache {ω ω' : Type} {env : Surroundings ω} {resting : ω → ω → Prop}
    {starts : Option Nat → Prop} {s : Situation ω} (h : Reachable env resting starts s)
    {cache : Cache} (hcache : cache = s.cache ∨ cache = Cache.empty) (world : ω') :
    Sound (⟨world, s.memory, cache⟩ : Situation ω') := by
  have hs := h.sound
  rcases hcache with rfl | rfl
  · exact { hs with }
  · exact sound_of_wellFormed hs.memory world

/-- In two calm surroundings with the same receipts, a block that is processed on a store that
scanners have made comes to the same end, and leaves the same history. -/
theorem history_independent_of_live_answers {ω ω₁ ω₂ : Type} {env : Surroundings ω}
    {resting : ω → ω → Prop} {starts : Option Nat → Prop} {s : Situation ω}
    (hs : Reachable env resting starts s) {cache : Cache}
    (hcache : cache = s.cache ∨ cache = Cache.empty) {env₁ : Surroundings ω₁}
    {env₂ : Surroundings ω₂} {receipts : String → Except Error (List Receipt)}
    (h₁ : env₁.Calm receipts) (h₂ : env₂.Calm receipts) (world₁ : ω₁) (world₂ : ω₂)
    (interval : Nat) (caller : String) (b : Block) :
    let setup : Setup := ⟨interval, Observer.standard caller⟩
    (env₁.process setup b ⟨world₁, s.memory, cache⟩).1 =
        (env₂.process setup b ⟨world₂, s.memory, cache⟩).1 ∧
      (env₁.process setup b ⟨world₁, s.memory, cache⟩).2.memory.history =
        (env₂.process setup b ⟨world₂, s.memory, cache⟩).2.memory.history := by
  intro setup
  -- either run makes the entries of the block
  have hrun : ∀ {ω : Type} {env : Surroundings ω} (_ : env.Calm receipts) (world : ω),
      (env.process setup b ⟨world, s.memory, cache⟩).1 =
          (Entry.enterAll (Entry.ofBlock receipts b) s.memory.history).1 ∧
        (env.process setup b ⟨world, s.memory, cache⟩).2.memory.history =
          (Entry.enterAll (Entry.ofBlock receipts b) s.memory.history).2 := by
    intro ω env hcalm world
    have hs' : (Frame.plain env).At ⟨world, s.memory, cache⟩ :=
      ⟨trivial, hs.sound_of_cache hcache world⟩
    have hfaithful : env.Faithful receipts := by
      intro transaction world received hreply
      exact (hcalm.receipts transaction world).symm.trans hreply
    have henters : Enters (Frame.plain env) receipts .strict (Entry.ofBlock receipts b)
        (indexBlock setup b) (fun a _ => a = ()) ⟨world, s.memory, cache⟩ :=
      (indexBlock_enters hfaithful hs' interval caller b).weaken fun _ _ _ => rfl
    obtain ⟨hresult, hhistory⟩ := henters.run hcalm
    refine ⟨hresult.trans ?_, hhistory⟩
    cases (Entry.enterAll (Entry.ofBlock receipts b) s.memory.history).1 <;> rfl
  have hfirst := hrun h₁ world₁
  have hsecond := hrun h₂ world₂
  exact ⟨hfirst.1.trans hsecond.1.symm, hfirst.2.trans hsecond.2.symm⟩

/-- A block with a transfer. -/
def transferring : Block :=
  let transfer : Json := .arr [.int 0, .obj [
    ("amount", .obj [("amount", .int 5), ("asset_id", .str "1.3.0")]),
    ("from_addr", .str "sender"), ("to_addr", .str "receiver")]]
  { number := 1, transactions := [{ id := "tx", operations := [transfer] }] }

/-- Surroundings in which there is this block, and balances cannot be had. -/
def withoutBalances (failure : Error) : Surroundings Unit :=
  .steady (.lone transferring failure)

theorem calm_withoutBalances (failure : Error) (hfailure : failure.isStoreFailure = false) :
    (withoutBalances failure).Calm fun _ => .ok [] :=
  calm_steady fun request e _ => Answers.lone_error hfailure request e

/-- What the block comes to there, on an empty store. -/
def processedWithoutBalances (failure : Error) : Except Error Unit × Situation Unit :=
  (withoutBalances failure).process ⟨1, Observer.standard "caller"⟩ transferring
    ⟨(), Memory.empty, Cache.empty⟩

theorem history_independent_of_balances :
    (processedWithoutBalances (.node "closed")).2.memory.operations.length = 1 ∧
      (processedWithoutBalances (.node "closed")).1 =
        (processedWithoutBalances (.malformed (.reported "nothing"))).1 ∧
      (processedWithoutBalances (.node "closed")).2.memory.history =
        (processedWithoutBalances (.malformed (.reported "nothing"))).2.memory.history := by
  have hreachable : Reachable (withoutBalances (.node "closed")) (fun _ _ => True)
      (fun _ => True) ⟨(), Memory.empty, Cache.empty⟩ := .empty ()
  refine ⟨by decide +kernel, ?_⟩
  exact history_independent_of_live_answers hreachable (.inl rfl)
    (calm_withoutBalances (.node "closed") rfl)
    (calm_withoutBalances (.malformed (.reported "nothing")) rfl) () () 1 "caller" transferring

end ChainIndex.Scan
