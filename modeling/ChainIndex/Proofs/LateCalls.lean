import ChainIndex.Proofs.Turns

/-!
# Calls that come too late

Once nothing can be written any more, or nothing is listened for, no reply can reach a call that has
not got it yet. Such a call fails: as long as it is not over something drives it on, and that can
happen a few times only.
-/

namespace ChainIndex.Node

namespace Connection

variable {c d : Connection} {number : Nat} {event : Event}

/-- An event drives a call to its end: the call goes on, or the listener closes the connection. -/
def Event.drives (number : Nat) : Event → Bool
  | .go other _ => other == number
  | .cancel => true
  | _ => false

/-- A call, if it is made at all, fails with an error of the node: it has failed, or is not over and
something drives it on. -/
def Fails (c : Connection) (number : Nat) : Prop :=
  ∀ caller, c.callers[number]? = some caller →
    (∃ failure detail, caller.phase = .ended (.failed failure) ∧
      (Outcome.failed failure).result caller.call.method = .error (.node detail)) ∨
    (caller.phase.outcome? = none ∧
      ∃ event, Event.drives number event = true ∧ (c.after event).isSome)

/-! ## Closing -/

/-- The connection is closed before the rest of a closing is done. -/
structure Ordered (c : Connection) : Prop where
  left : c.listener = .closing ∨ c.listener = .gone → c.closed = true
  begun : 0 < c.closing → c.closed = true
  parted : 0 < c.parting → c.closed = true ∧ c.writable = false

theorem Ordered.after (h : c.Ordered) (hafter : c.after event = some d) : d.Ordered := by
  cases happens_of_after hafter with
  | begin | go | pass | ignore => exact ⟨h.left, h.begun, h.parted⟩
  | hangUp | noticeClose => exact ⟨nofun, h.begun, h.parted⟩
  | cancel => exact ⟨fun _ => rfl, fun _ => rfl, fun hparting => ⟨rfl, (h.parted hparting).2⟩⟩
  | clear hlistener => exact ⟨fun _ => h.left (.inl hlistener), h.begun, h.parted⟩
  | close => exact ⟨fun _ => rfl, fun _ => rfl, fun hparting => ⟨rfl, (h.parted hparting).2⟩⟩
  | takeWriter hclosing =>
    have hclosed := h.begun hclosing
    exact ⟨fun _ => hclosed, fun _ => hclosed, fun _ => ⟨hclosed, rfl⟩⟩
  | closeReturns hparting =>
    have hparted := h.parted hparting
    exact ⟨h.left, h.begun, fun _ => hparted⟩

/-- No reply can reach a call: it is not answered, and its request can no longer go out, or nobody
listens for its reply. -/
structure OutOfReach (c : Connection) (number : Nat) : Prop where
  unanswered : ∀ reply, c.phase? number ≠ some (.ended (.replied reply))
  cut : (c.closed = true ∧ c.writable = false ∧ c.phase? number ≠ some .sent) ∨
    (c.listener ≠ .listening ∧ c.inbox? number = none)

namespace OutOfReach

/-- A turn that leaves the call where it is, and reopens nothing. -/
theorem keep (h : c.OutOfReach number) (hphase : d.phase? number = c.phase? number)
    (hinbox : d.inbox? number = c.inbox? number) (hclosed : c.closed = true → d.closed = true)
    (hwritable : c.writable = false → d.writable = false)
    (hlistener : c.listener ≠ .listening → d.listener ≠ .listening) : d.OutOfReach number := by
  refine ⟨fun reply => hphase ▸ h.unanswered reply, ?_⟩
  rw [hphase, hinbox]
  rcases h.cut with ⟨hc, hw, hsent⟩ | ⟨hl, hnone⟩
  · exact .inl ⟨hclosed hc, hwritable hw, hsent⟩
  · exact .inr ⟨hlistener hl, hnone⟩

theorem begin (h : c.OutOfReach number) (call : Rpc.Call) :
    OutOfReach { c with callers := c.callers ++ [{ call }] } number := by
  constructor
  case unanswered =>
    intro reply
    rw [phase?_begin]
    split
    · nofun
    · exact h.unanswered reply
  case cut =>
    rw [phase?_begin, inbox?_begin]
    rcases h.cut with ⟨hc, hw, hsent⟩ | hr
    · refine .inl ⟨hc, hw, ?_⟩
      split
      · nofun
      · exact hsent
    · exact .inr hr

theorem go (h : c.OutOfReach number) {other : Nat} {caller : Caller} {move : Move} {phase : Phase}
    (hcaller : c.callers[other]? = some caller) (hturn : Turn c caller move phase) :
    (c.moved other caller move phase).OutOfReach number := by
  by_cases hsame : number = other
  · subst hsame
    have hphase := phase?_of_caller hcaller
    have hinbox := inbox?_of_caller hcaller
    -- a request goes out only while it can be written, and only then a reply is taken
    have hsent : (c.writable = true ∧ phase = .sent) ∨ phase ≠ .sent := by
      cases hturn with
      | write _ hwritable => exact .inl ⟨hwritable, rfl⟩
      | list | fail | take | unlist => exact .inr nofun
    have htaken : ∀ reply, phase = .ended (.replied reply) →
        caller.phase = .sent ∧ caller.inbox = some reply := by
      rintro reply rfl
      cases hturn with
      | take hsent hreply => exact ⟨hsent, hreply⟩
    constructor
    case unanswered =>
      intro reply hover
      rw [phase?_moved hcaller, if_pos rfl, Option.some.injEq] at hover
      obtain ⟨hwas, hreply⟩ := htaken reply hover
      rcases h.cut with ⟨-, -, hnot⟩ | ⟨-, hnone⟩
      · exact hnot (by rw [hphase, hwas])
      · rw [hinbox, hreply] at hnone
        cases hnone
    case cut =>
      rw [phase?_moved hcaller, if_pos rfl, inbox?_moved hcaller]
      rcases h.cut with ⟨hc, hw, -⟩ | hr
      · refine .inl ⟨hc, hw, ?_⟩
        rcases hsent with ⟨hwritable, -⟩ | hnot
        · rw [hw] at hwritable
          cases hwritable
        · simpa using hnot
      · exact .inr hr
  · exact h.keep (by rw [phase?_moved hcaller, if_neg hsame]) (inbox?_moved hcaller ..) id id id

theorem after (h : c.OutOfReach number) (hafter : c.after event = some d) :
    d.OutOfReach number := by
  cases happens_of_after hafter with
  | begin call => exact h.begin call
  | go hcaller hturn => exact h.go hcaller hturn
  | pass hlistener =>
    refine ⟨fun reply => ?_, ?_⟩
    · rw [phase?_pass]
      exact h.unanswered reply
    · rw [phase?_pass]
      rcases h.cut with hl | ⟨hleft, -⟩
      · exact .inl hl
      · exact absurd hlistener hleft
  | ignore => exact h
  | hangUp | noticeClose | clear => exact h.keep rfl rfl id id fun _ => nofun
  | cancel => exact h.keep rfl rfl (fun _ => rfl) id fun _ => nofun
  | close => exact h.keep rfl rfl (fun _ => rfl) id id
  | takeWriter => exact h.keep rfl rfl id (fun _ => rfl) id
  | closeReturns => exact h.keep rfl rfl id id id

end OutOfReach

/-! ## Failing -/

/-- Once the connection is closed, or the listener is about to close it, something drives every call
that is not over. -/
theorem exists_drives (h : c.Ordered) (hend : c.closed = true ∨ c.listener ≠ .listening)
    {caller : Caller} (hcaller : c.callers[number]? = some caller)
    (hphase : caller.phase.outcome? = none) :
    ∃ event, Event.drives number event = true ∧ (c.after event).isSome := by
  have hmove (move : Move) (phase : Phase)
      (hphase : c.phaseAfter? number caller move = some phase) :
      ∃ event, Event.drives number event = true ∧ (c.after event).isSome := by
    refine ⟨.go number move, by simp [Event.drives], ?_⟩
    rw [Connection.after, move?_of_phaseAfter? hcaller hphase]
    rfl
  by_cases hclosed : c.closed = true
  · cases hnow : caller.phase with
    | begun => exact hmove .list .listed (by simp only [phaseAfter?, hnow])
    | listed | sent =>
      exact hmove .noticeClose (.leaving .lost) (by simp only [phaseAfter?, hnow, if_pos hclosed])
    | leaving failure =>
      exact hmove .unlist (.ended (.failed failure)) (by simp only [phaseAfter?, hnow])
    | ended outcome =>
      rw [hnow] at hphase
      cases hphase
  · -- a listener that has come further than leaving has closed the connection
    have hleft := hend.resolve_left hclosed
    have hleaving : c.listener = .leaving := by
      cases hlistener : c.listener with
      | listening => exact absurd hlistener hleft
      | leaving => rfl
      | closing => exact absurd (h.left (.inl hlistener)) hclosed
      | gone => exact absurd (h.left (.inr hlistener)) hclosed
    exact ⟨.cancel, rfl, by simp [Connection.after, hleaving]⟩

theorem OutOfReach.fails (h : c.OutOfReach number) (hordered : c.Ordered) : c.Fails number := by
  intro caller hcaller
  have hend : c.closed = true ∨ c.listener ≠ .listening := h.cut.imp And.left And.left
  cases hphase : caller.phase with
  | ended outcome =>
    cases outcome with
    | replied reply =>
      exact absurd (by rw [phase?_of_caller hcaller, hphase]) (h.unanswered reply)
    | failed failure =>
      left
      cases failure with
      | lost => exact ⟨_, _, rfl, rfl⟩
      | unsent detail => exact ⟨_, _, rfl, rfl⟩
  | begun | listed | sent | leaving =>
    exact .inr ⟨rfl, exists_drives hordered hend hcaller (by rw [hphase]; rfl)⟩

end Connection

end ChainIndex.Node
