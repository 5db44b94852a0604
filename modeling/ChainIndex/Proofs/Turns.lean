import ChainIndex.Node.Connection
import Mathlib.Data.List.Induction
import Std.Data.TreeMap.Lemmas

/-!
# Turns of a connection

What an event changes: a move of a call changes nothing but how far that call has come and whether
it is listed, a message changes nothing but what one call has got, and no other turn changes
either. What every event keeps holds after all of them.
-/

namespace ChainIndex.Node.Connection

variable {c d : Connection} {number : Nat}

/-! ## Moves of a call -/

/-- What a move takes a call to, by what it is for. -/
inductive Turn (c : Connection) (caller : Caller) : Move → Phase → Prop where
  | list (h : caller.phase = .begun) : Turn c caller .list .listed
  | write (h : caller.phase = .listed) (hwritable : c.writable = true) :
    Turn c caller .write .sent
  /-- A call fails on its way, and is listed as before. -/
  | fail {move : Move} (failure : Failure) (h : caller.phase = .listed ∨ caller.phase = .sent)
    (hkeeps : ∀ number, c.pendingAfter number move = c.pending) :
    Turn c caller move (.leaving failure)
  | take {reply : Reply} (h : caller.phase = .sent) (hinbox : caller.inbox = some reply) :
    Turn c caller .takeReply (.ended (.replied reply))
  | unlist {failure : Failure} (h : caller.phase = .leaving failure) :
    Turn c caller .unlist (.ended (.failed failure))

theorem Turn.of_phaseAfter? {caller : Caller} {move : Move} {phase : Phase}
    (h : c.phaseAfter? number caller move = some phase) : Turn c caller move phase := by
  unfold phaseAfter? at h
  split at h
  case h_1 hphase =>
    cases h
    exact .list hphase
  case h_2 hphase =>
    obtain ⟨hwritable, h⟩ := Option.ite_none_right_eq_some.1 h
    cases h
    exact .write hphase hwritable
  case h_3 hphase | h_5 hphase =>
    obtain ⟨-, h⟩ := Option.ite_none_right_eq_some.1 h
    cases h
    exact .fail _ (.inl hphase) fun _ => rfl
  case h_4 hphase =>
    obtain ⟨-, h⟩ := Option.ite_none_left_eq_some.1 h
    cases h
    exact .fail _ (.inl hphase) fun _ => rfl
  case h_6 hphase | h_8 hphase =>
    obtain ⟨-, h⟩ := Option.ite_none_right_eq_some.1 h
    cases h
    exact .fail _ (.inr hphase) fun _ => rfl
  case h_7 hphase =>
    obtain ⟨reply, hinbox, rfl⟩ := Option.map_eq_some_iff.1 h
    exact .take hphase hinbox
  case h_9 hphase =>
    cases h
    exact .unlist hphase
  case h_10 => cases h

/-- A connection after a move that took one of its calls to a phase. -/
def moved (c : Connection) (number : Nat) (caller : Caller) (move : Move) (phase : Phase) :
    Connection :=
  { c with
    callers := c.callers.set number { caller with phase }
    pending := c.pendingAfter number move }

theorem move?_of_phaseAfter? {caller : Caller} {move : Move} {phase : Phase}
    (hcaller : c.callers[number]? = some caller)
    (hphase : c.phaseAfter? number caller move = some phase) :
    c.move? number move = some (c.moved number caller move phase) := by
  simp [move?, hcaller, hphase, moved]

theorem turn_of_move? {move : Move} (h : c.move? number move = some d) :
    ∃ caller phase, c.callers[number]? = some caller ∧ Turn c caller move phase ∧
      d = c.moved number caller move phase := by
  obtain ⟨caller, hcaller, h⟩ := Option.bind_eq_some_iff.1 h
  obtain ⟨phase, hphase, h⟩ := Option.bind_eq_some_iff.1 h
  cases h
  exact ⟨caller, phase, hcaller, .of_phaseAfter? hphase, rfl⟩

theorem lt_length_of_phase? {phase : Phase} (h : c.phase? number = some phase) :
    number < c.callers.length := by
  obtain ⟨caller, hcaller, -⟩ := Option.map_eq_some_iff.1 h
  exact (List.getElem?_eq_some_iff.1 hcaller).1

theorem inbox?_of_length_le (h : c.callers.length ≤ number) : c.inbox? number = none := by
  rw [inbox?, List.getElem?_eq_none h]
  rfl

section

variable {caller : Caller} (h : c.callers[number]? = some caller)

include h

theorem phase?_of_caller : c.phase? number = some caller.phase := by
  rw [phase?, h]
  rfl

theorem inbox?_of_caller : c.inbox? number = caller.inbox := by
  rw [inbox?, h]
  rfl

theorem phase?_moved (move : Move) (phase : Phase) (other : Nat) :
    (c.moved number caller move phase).phase? other =
      if other = number then some phase else c.phase? other := by
  have hlt : number < c.callers.length := (List.getElem?_eq_some_iff.1 h).1
  by_cases hother : other = number
  · subst hother
    simp [phase?, moved, hlt]
  · simp [phase?, moved, hother, Ne.symm hother]

theorem inbox?_moved (move : Move) (phase : Phase) (other : Nat) :
    (c.moved number caller move phase).inbox? other = c.inbox? other := by
  have hlt : number < c.callers.length := (List.getElem?_eq_some_iff.1 h).1
  by_cases hother : other = number
  · subst hother
    rw [inbox?_of_caller h]
    simp [inbox?, moved, hlt]
  · simp [inbox?, moved, Ne.symm hother]

end

/-! ## The other turns -/

theorem getElem?_begin (c : Connection) (call : Rpc.Call) (other : Nat) :
    (c.callers ++ [({ call } : Caller)])[other]? =
      if other = c.callers.length then some { call } else c.callers[other]? := by
  rcases Nat.lt_trichotomy other c.callers.length with hlt | heq | hgt
  · rw [if_neg (Nat.ne_of_lt hlt), List.getElem?_append_left hlt]
  · rw [if_pos heq, heq, List.getElem?_concat_length]
  · rw [if_neg (Nat.ne_of_gt hgt), List.getElem?_eq_none (Nat.le_of_lt hgt),
      List.getElem?_eq_none (by simpa using Nat.succ_le_of_lt hgt)]

theorem phase?_begin (c : Connection) (call : Rpc.Call) (other : Nat) :
    ({ c with callers := c.callers ++ [{ call }] } : Connection).phase? other =
      if other = c.callers.length then some .begun else c.phase? other := by
  show Option.map _ (c.callers ++ [({ call } : Caller)])[other]? = _
  rw [getElem?_begin, phase?]
  split <;> rfl

theorem inbox?_begin (c : Connection) (call : Rpc.Call) (other : Nat) :
    ({ c with callers := c.callers ++ [{ call }] } : Connection).inbox? other =
      c.inbox? other := by
  show Option.bind (c.callers ++ [({ call } : Caller)])[other]? _ = _
  rw [getElem?_begin]
  split
  · rename_i hnew
    exact (inbox?_of_length_le (Nat.le_of_eq hnew.symm)).symm
  · rfl

theorem phase?_pass (c : Connection) (reply : Reply) (other : Nat) :
    (c.pass number reply).phase? other = c.phase? other := by
  by_cases hsame : number = other
  · subst hsame
    cases hcaller : c.callers[number]? <;> simp [phase?, pass, hcaller]
  · simp [phase?, pass, hsame]

theorem inbox?_pass (c : Connection) (reply : Reply) {phase : Phase}
    (h : c.phase? number = some phase) (other : Nat) :
    (c.pass number reply).inbox? other =
      if other = number then some reply else c.inbox? other := by
  by_cases hsame : number = other
  · subst hsame
    obtain ⟨caller, hcaller, -⟩ := Option.map_eq_some_iff.1 h
    simp [inbox?, pass, hcaller]
  · simp [inbox?, pass, hsame, Ne.symm hsame]

/-- A message ends the listening, is passed on to a call, or changes nothing. -/
theorem hear_cases (c : Connection) (frame : Frame) :
    (frame = .hangUp ∧ c.recipient? frame = none ∧
        c.hear frame = { c with listener := .leaving }) ∨
      (∃ reply number, frame.reply? = some reply ∧ c.recipient? frame = some number ∧
        c.hear frame = c.pass number reply) ∨
      (frame ≠ .hangUp ∧ c.recipient? frame = none ∧ c.hear frame = c) := by
  by_cases hhang : frame = .hangUp
  · subst hhang
    exact .inl ⟨rfl, rfl, rfl⟩
  · cases hto : c.recipient? frame with
    | none =>
      refine .inr (.inr ⟨hhang, rfl, ?_⟩)
      -- the cases are those of `hear`, of which the second needs a recipient
      unfold hear
      split
      · exact absurd rfl hhang
      · rename_i hsome
        rw [hto] at hsome
        cases hsome
      · rfl
    | some number =>
      obtain ⟨id, hid, -⟩ := Option.bind_eq_some_iff.1 hto
      obtain ⟨reply, hreply, -⟩ := Option.bind_eq_some_iff.1 hid
      refine .inr (.inl ⟨reply, number, hreply, rfl, ?_⟩)
      simp only [hear, hreply, hto]

/-- What an event does to a connection. -/
inductive Happens (c : Connection) : Event → Connection → Prop where
  | begin (call : Rpc.Call) :
    Happens c (.begin call) { c with callers := c.callers ++ [{ call }] }
  | go {number : Nat} {caller : Caller} {move : Move} {phase : Phase}
    (hcaller : c.callers[number]? = some caller) (hturn : Turn c caller move phase) :
    Happens c (.go number move) (c.moved number caller move phase)
  | hangUp (hlistener : c.listener = .listening) :
    Happens c (.receive .hangUp) { c with listener := .leaving }
  | pass {frame : Frame} {reply : Reply} {number : Nat} (hlistener : c.listener = .listening)
    (hreply : frame.reply? = some reply) (hto : c.recipient? frame = some number) :
    Happens c (.receive frame) (c.pass number reply)
  | ignore {frame : Frame} (hlistener : c.listener = .listening) (hhang : frame ≠ .hangUp)
    (hto : c.recipient? frame = none) :
    Happens c (.receive frame) c
  | noticeClose (hlistener : c.listener = .listening) (hclosed : c.closed = true) :
    Happens c .noticeClose { c with listener := .leaving }
  | cancel (hlistener : c.listener = .leaving) :
    Happens c .cancel { c with
      listener := .closing
      closed := true }
  | clear (hlistener : c.listener = .closing) :
    Happens c .clear { c with
      listener := .gone
      pending := ∅ }
  | close :
    Happens c .close { c with
      closed := true
      closing := c.closing + 1 }
  | takeWriter (hclosing : 0 < c.closing) :
    Happens c .takeWriter { c with
      writable := false
      closing := c.closing - 1
      parting := c.parting + 1 }
  | closeReturns (hparting : 0 < c.parting) :
    Happens c .closeReturns { c with parting := c.parting - 1 }

theorem happens_of_after {event : Event} (h : c.after event = some d) : Happens c event d := by
  cases event with
  | begin call =>
    cases h
    exact .begin call
  | go number move =>
    obtain ⟨caller, phase, hcaller, hturn, rfl⟩ := turn_of_move? h
    exact .go hcaller hturn
  | receive frame =>
    obtain ⟨hlistener, h⟩ := Option.ite_none_right_eq_some.1 h
    cases h
    obtain ⟨rfl, -, hhear⟩ | ⟨reply, number, hreply, hto, hhear⟩ | ⟨hhang, hto, hhear⟩ :=
      hear_cases c frame
    · rw [hhear]
      exact .hangUp hlistener
    · rw [hhear]
      exact .pass hlistener hreply hto
    · rw [hhear]
      exact .ignore hlistener hhang hto
  | noticeClose =>
    obtain ⟨⟨hlistener, hclosed⟩, h⟩ := Option.ite_none_right_eq_some.1 h
    cases h
    exact .noticeClose hlistener hclosed
  | cancel =>
    obtain ⟨hlistener, h⟩ := Option.ite_none_right_eq_some.1 h
    cases h
    exact .cancel hlistener
  | clear =>
    obtain ⟨hlistener, h⟩ := Option.ite_none_right_eq_some.1 h
    cases h
    exact .clear hlistener
  | close =>
    cases h
    exact .close
  | takeWriter =>
    obtain ⟨hclosing, h⟩ := Option.ite_none_right_eq_some.1 h
    cases h
    exact .takeWriter hclosing
  | closeReturns =>
    obtain ⟨hparting, h⟩ := Option.ite_none_right_eq_some.1 h
    cases h
    exact .closeReturns hparting

/-! ## Courses of events -/

theorem run_append (c : Connection) (past future : List Event) :
    c.run (past ++ future) = (c.run past).bind fun d => d.run future := by
  induction past generalizing c with
  | nil => rfl
  | cons event rest ih =>
    simp only [List.cons_append, run, Option.bind_assoc]
    exact congrArg _ (funext fun d => ih d)

theorem run_append_of {past : List Event} (h : c.run past = some d) (future : List Event) :
    c.run (past ++ future) = d.run future := by
  rw [run_append, h]
  rfl

/-- A course of events has led to the connection. -/
def Reachable (c : Connection) : Prop := ∃ past, ({} : Connection).run past = some c

theorem Reachable.follow (h : c.Reachable) (event : Event) : (c.follow event).Reachable := by
  obtain ⟨past, hpast⟩ := h
  unfold Connection.follow
  cases hafter : c.after event with
  | none => exact ⟨past, hpast⟩
  | some d =>
    refine ⟨past ++ [event], ?_⟩
    rw [run_append_of hpast]
    simp [run, hafter]

/-- What happens to a connection while nobody tarries is a course of events. -/
theorem Reachable.step (h : c.Reachable) (step : Step) : (c.step step).1.Reachable := by
  have hfold : ∀ (events : List Event) (c : Connection), c.Reachable →
      (events.foldl Connection.follow c).Reachable := by
    intro events
    induction events with
    | nil => exact fun _ h => h
    | cons event rest ih => exact fun c h => ih _ (h.follow event)
  exact hfold _ c h

end ChainIndex.Node.Connection
