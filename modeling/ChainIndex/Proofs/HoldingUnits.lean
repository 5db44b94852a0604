import ChainIndex.Proofs.Numerals
import ChainIndex.Proofs.TokenWrites

/-!
# The units of holdings

The balance of an owner in a token is written with the decimal places that are on record for the
token at that moment, and stays as it is until the owner's balance is asked for again. The record of
a token may get another precision in the meantime, and no balance is written anew for that: what can
be said of an amount is which unit it was written in.
-/

namespace ChainIndex

open Observer (Question.integer Question.holding)
open Scan
open Store (Memory)

/-! ## Decimal places -/

/-- Digits, after a sign at most, and before the last of them a point with this number of digits
after it, if there are to be any. -/
def Decimals (amount : String) (places : Nat) : Prop :=
  ∃ sign whole fraction : List Char, (sign = [] ∨ sign = ['-']) ∧ whole ≠ [] ∧
    (∀ c ∈ whole ++ fraction, c.isDigit) ∧ fraction.length = places ∧
    amount.toList = sign ++ whole ++ if places = 0 then [] else '.' :: fraction

/-- The decimal places on record for a token, none if there is no precision on record. -/
def TokenRecord.places (token : TokenRecord) : Nat :=
  (token.precision.bind Observer.places).getD 0

/-- An amount is shown with just the places that it is to have. -/
theorem decimals_scale (raw : Int) (precision : Option Nat) :
    Decimals (Amount.scale raw precision) (precision.getD 0) := by
  have hwrites : Numeral.Writes (Amount.scale raw precision) raw (precision.getD 0) := by
    cases precision with
    | none => exact Amount.scaleWith_none_writes _ raw
    | some places => exact Amount.scaleWith_writes FixedPoint.words96_faithful raw places
  obtain ⟨n, hn, -, -, htext⟩ := hwrites
  refine ⟨if n.negative then ['-'] else [], n.whole, n.fraction, ?_, hn.some, ?_, hn.places, ?_⟩
  · cases n.negative
    · exact .inl rfl
    · exact .inr rfl
  · intro c hc
    rcases List.mem_append.1 hc with hc | hc
    · exact hn.whole c hc
    · exact hn.fraction c hc
  · rw [← htext, Numeral.text, String.toList_ofList]
    simp only [hn.fraction_eq_nil]

namespace Scan

variable {ω : Type} {env : Surroundings ω} {s : Situation ω}

/-! ## What writes holdings -/

/-- Holdings that are in a store and were not in the one before are in the unit of their token. -/
def WritesInUnit (m m' : Memory) : Prop :=
  ∀ row ∈ m'.holdings, row ∈ m.holdings ∨
    ∃ token, m.token? row.contract = some token ∧ Decimals row.amount token.places

/-- From a situation, a procedure only writes holdings in the units of their tokens. -/
abbrev InUnits {α : Type} (env : Surroundings ω) (p : Procedure α)
    (Q : Except Error α → Situation ω → Prop) (s : Situation ω) : Prop :=
  p.Along env.answer (fun s s' => WritesInUnit s.memory s'.memory) Q s

theorem writesInUnit_of_same {m m' : Memory} (h : m'.holdings = m.holdings) : WritesInUnit m m' :=
  fun _ hrow => .inl (h ▸ hrow)

/-- What does not write to the holdings at all. -/
theorem inUnits_of_observes {α : Type} {Q : Except Error α → Situation ω → Prop}
    {kept : List Derived} {p : Procedure α} (h : Heeds (·.observes kept) p)
    (hkept : some .holdings ∉ kept.map (·.part?))
    (hQ : Q (Program.run env.answer p s).1 (Program.run env.answer p s).2) :
    InUnits env p Q s :=
  Program.Obeys.along h
    (fun _ s hobserves => writesInUnit_of_same (env.answer_same
      (fun htarget => hkept (Request.target?_of_observes hobserves htarget)) s)) hQ

/-! ## Balances in tokens -/

section

variable {contract : String} {token : TokenRecord}

/-- A balance is written in the unit that is on record. -/
theorem refreshHolding_inUnits (htoken : s.memory.token? contract = some token)
    (caller owner : String) :
    InUnits env
      (Observer.refreshHolding caller contract owner (token.precision.bind Observer.places))
      (fun _ s' => s'.memory.token? contract = some token) s := by
  have hquestion : InUnits env (Question.holding caller contract owner)
      (fun _ s' => s'.memory.token? contract = some token) s :=
    (along_question (integer_heeds caller contract "balanceOf" owner) fun _ _ =>
      writesInUnit_of_same rfl).mono fun _ _ hend => hend.2 ▸ htoken
  refine hquestion.bind (fun _ _ hs' => hs') fun raw s' hs' => ?_
  generalize hbalance : (⟨contract, owner,
    Amount.scale raw (token.precision.bind Observer.places)⟩ : HoldingRecord) = balance
  have htarget : (Request.store (.putHolding balance)).target? ≠ some .tokens := nofun
  have hsame : (env.answer (.store (.putHolding balance)) s').2.memory.tokens = s'.memory.tokens :=
    env.answer_same htarget s'
  refine along_store (T := fun s s' => WritesInUnit s.memory s'.memory) ?_ ?_
  · -- the only balance that is new is the one that is set
    obtain ⟨detail, world, hstore⟩ | ⟨world, hstore⟩ :=
      env.answer_store_cases (.putHolding balance) s'
    · rw [hstore]
      exact writesInUnit_of_same rfl
    · rw [hstore]
      intro row hrow
      rcases Store.Memory.mem_putHolding hrow with hrow | hrow
      · exact .inl hrow
      · rw [hrow, ← hbalance]
        exact .inr ⟨token, hs', decimals_scale raw _⟩
  · show List.find? _ _ = _
    rw [hsame]
    exact hs'

theorem refreshOwners_inUnits (htoken : s.memory.token? contract = some token) (caller : String)
    (owners : List String) :
    InUnits env
      (Observer.refreshOwners caller contract (token.precision.bind Observer.places) owners)
      (fun _ s' => s'.memory.token? contract = some token) s := by
  induction owners generalizing s with
  | nil => exact htoken
  | cons owner rest ih =>
    exact (along_passOver (refreshHolding_inUnits htoken caller owner)).bind
      (fun _ _ hs' => hs') fun _ _ hs' => ih hs'

end

/-! ## Runs -/

/-- Only the writers of balances write to the holdings, and they do so in the units of tokens. -/
theorem tokenWriters_inUnits (caller : String) :
    TokenWriters env caller fun s s' => WritesInUnit s.memory s'.memory where
  other _ s _ hholdings := writesInUnit_of_same (env.answer_same hholdings s)
  record seen r _ := inUnits_of_observes (recordToken_heeds caller seen r) (by decide) trivial
  setUp contract _ := inUnits_of_observes (followSetUp_heeds caller contract) (by decide) trivial
  supply contract _ :=
    inUnits_of_observes (refreshSupply_heeds caller contract) (by decide) trivial
  owners owners _ htoken := (refreshOwners_inUnits htoken caller owners).mono fun _ _ _ => trivial

/-- Whatever the node answers, and wherever runs break off: every balance in a token was written at
some stage, when the token was on record, with just the decimal places that were on record for it,
and has been there since. -/
theorem holdings_in_units_of_their_writing {resting : ω → ω → Prop} {starts : Option Nat → Prop}
    {n : Nat} {past : List (Recorded ω)} (h : Chronicle env resting starts n past s) :
    ∀ row ∈ s.memory.holdings, ∃ earlier x later token, past = earlier ++ x :: later ∧
      row ∉ x.stage.before.memory.holdings ∧
      x.stage.before.memory.token? row.contract = some token ∧
      Decimals row.amount token.places ∧
      ∀ y ∈ x :: later, row ∈ y.stage.after.memory.holdings := by
  refine h.keeps (K := fun past m => ∀ row ∈ m.holdings, ∃ earlier x later token,
    past = earlier ++ x :: later ∧ row ∉ x.stage.before.memory.holdings ∧
    x.stage.before.memory.token? row.contract = some token ∧
    Decimals row.amount token.places ∧
    ∀ y ∈ x :: later, row ∈ y.stage.after.memory.holdings) nofun ?_
  intro n past s interval rounds caller start hpast world x hx past' hkept row hrow
  have hsound : Sound (⟨world, s.memory, Cache.empty⟩ : Situation ω) :=
    sound_of_wellFormed hpast.reachable.sound.memory world
  by_cases hold : row ∈ x.before.memory.holdings
  · obtain ⟨earlier, y, later, token, rfl, hnew, htoken, hplaces, hsince⟩ := hkept row hold
    refine ⟨earlier, y, later ++ [⟨n, x⟩], token, by simp, hnew, htoken, hplaces, ?_⟩
    rw [← List.cons_append]
    intro z hz
    rcases List.mem_append.1 hz with hz | hz
    · exact hsince z hz
    · rw [List.mem_singleton.1 hz]
      exact hrow
  · have hwriters : TokenWriters env caller fun s s' => WritesInUnit s.memory s'.memory :=
      tokenWriters_inUnits caller
    have hwrites := (Program.along_iff.1 (hwriters.launch hsound interval rounds start)).1 x hx
    obtain ⟨token, htoken, hplaces⟩ := (hwrites row hrow).resolve_left hold
    refine ⟨past', ⟨n, x⟩, [], token, rfl, hold, htoken, hplaces, ?_⟩
    intro z hz
    rw [List.mem_singleton.1 hz]
    exact hrow

/-! ## A token that is set up late -/

/-- An operation that registers a token contract. -/
def registering (contract : String) : Json :=
  .arr [.int 76, .obj [
    ("contract_code", .obj [
      ("abi", .arr (Registration.tokenMethods.map .str)),
      ("offline_abi", .arr (Registration.tokenReads.map .str))]),
    ("contract_id", .str contract), ("gas_price", .int 0), ("inherit_from", .str ""),
    ("init_cost", .int 0), ("owner_addr", .str ""), ("owner_pubkey", .str ""),
    ("register_time", .str "")]]

/-- An operation that calls a contract. -/
def invoking : Json := .arr [.int 78, .obj []]

/-- The receipt of an operation whose code ran through. -/
def completing (index : Nat) (events : List Event) : Receipt :=
  { operation := index, succeeded := true, events }

/-- A token is registered and transferred in the first block, and set up in the second. -/
def tokenBlocks : List Block := [
  { number := 1, timestamp := "2019-03-04T05:06:07",
    transactions := [{ id := "sale", operations := [registering "coin", invoking] }] },
  { number := 2, timestamp := "2019-03-04T05:06:12",
    transactions := [{ id := "setup", operations := [invoking] }] }]

def tokenReceipts (transaction : String) : List Receipt :=
  if transaction = "sale" then
    [completing 0 [], completing 1 [{
      contract := "coin", name := "Transfer",
      argument := "\x7b\"from\":\"\",\"to\":\"owner\",\"amount\":1000\x7d" }]]
  else
    [completing 0 [{ contract := "coin", name := "Inited" }]]

/-- What the token says of itself. -/
def tokenSays (method : String) : String :=
  if method = "tokenName" then "Coin"
  else if method = "tokenSymbol" then "C"
  else if method = "precision" then "2"
  else "1000"

/-- Surroundings in which the token does not describe itself at first, nor is its second block
there. -/
def describedLater : Surroundings Bool where
  node
    | .block number, late =>
      (.ok (if late ∨ number = 1 then tokenBlocks[number - 1]? else none), late)
    | .receipts transaction, late => (.ok (tokenReceipts transaction), late)
    | .invoke _ _ method _, late =>
      (if late ∨ method = "balanceOf" then .ok (tokenSays method) else .error (.node "closed"),
        late)
    | .assets _ _, late => (.ok [], late)
    | .balances _, late => (.ok [], late)
  fault _ late := (none, late)
  cancelled _ := false

/-- A run there, from a store as it is. -/
def runLater (late : Bool) (m : Memory) : List (Situation Bool) :=
  (launch ⟨1, Observer.standard "caller"⟩ none 1).moments describedLater.answer
    ⟨late, m, Cache.empty⟩

/-- How things stand after a run there. -/
def afterLater (late : Bool) (m : Memory) : Situation Bool :=
  (runLater late m).getLastD ⟨late, m, Cache.empty⟩

/-- The token has been transferred. -/
def sold : Situation Bool := afterLater false Memory.empty

/-- The token has described itself after that. -/
def setUp : Situation Bool := afterLater true sold.memory

theorem mem_runLater {late : Bool} {m : Memory} (h : runLater late m ≠ []) :
    afterLater late m ∈ runLater late m :=
  Program.getLastD_mem_of_ne_nil _ h

/-- Both runs have been made. -/
theorem reachable_setUp : Reachable describedLater (fun _ _ => True) (· = none) setUp := by
  have hsold : Reachable describedLater (fun _ _ => True) (· = none) sold :=
    .run 1 1 "caller" (.empty false) trivial rfl (mem_runLater (by decide +kernel))
  exact .run 1 1 "caller" hsold trivial rfl (mem_runLater (by decide +kernel))

/-- A balance has been written before the token had a precision, and has no decimal places now that
the token has two. -/
theorem holding_outlives_its_unit :
    Reachable describedLater (fun _ _ => True) (· = none) setUp ∧
      ∃ row ∈ setUp.memory.holdings, ∃ token,
        setUp.memory.token? row.contract = some token ∧ token.precision = some 2 ∧
          ¬ Decimals row.amount token.places := by
  have hholdings : setUp.memory.holdings = [⟨"coin", "owner", "1000"⟩] := by decide +kernel
  have hprecision : (setUp.memory.token? "coin").map (·.precision) = some (some 2) := by
    decide +kernel
  obtain ⟨token, htoken, hprecision⟩ := Option.map_eq_some_iff.1 hprecision
  refine ⟨reachable_setUp, ⟨"coin", "owner", "1000"⟩, by simp [hholdings], token, htoken,
    hprecision, ?_⟩
  have hplaces : token.places = 2 := by
    unfold TokenRecord.places
    rw [hprecision]
    rfl
  rintro ⟨sign, whole, fraction, -, -, -, -, hamount⟩
  -- there would have to be a point
  have hpoint : '.' ∈ "1000".toList := by
    rw [hamount, hplaces]
    simp
  exact absurd hpoint (by decide)

theorem holdings_in_units_of_their_writing_when_set_up :
    ∃ n past, Chronicle describedLater (fun _ _ => True) (· = none) n past setUp ∧
      ∃ row ∈ setUp.memory.holdings, ∃ earlier x later token, past = earlier ++ x :: later ∧
        row ∉ x.stage.before.memory.holdings ∧
        x.stage.before.memory.token? row.contract = some token ∧
        Decimals row.amount token.places ∧
        ∀ y ∈ x :: later, row ∈ y.stage.after.memory.holdings := by
  obtain ⟨n, past, hpast⟩ := reachable_setUp.chronicle
  have hholdings : setUp.memory.holdings = [⟨"coin", "owner", "1000"⟩] := by decide +kernel
  have hrow : (⟨"coin", "owner", "1000"⟩ : HoldingRecord) ∈ setUp.memory.holdings := by
    simp [hholdings]
  exact ⟨n, past, hpast, _, hrow, holdings_in_units_of_their_writing hpast _ hrow⟩

end Scan

end ChainIndex
