import ChainIndex.Proofs.LateCalls

/-!
# Replies find their calls

Whatever turns the calls, the listener and those who close the connection take: a call that is
answered is answered by the first reply with its id since it was listed, and nobody else is; what
answers no call changes nothing; and a call that comes too late to be answered fails, without
getting stuck.
-/

namespace ChainIndex.Node

/-- A call in this phase may be listed. -/
def Phase.Waits : Phase → Prop
  | .listed | .sent | .leaving _ => True
  | .begun | .ended _ => False

namespace Connection

variable {c d e : Connection} {number : Nat}

/-! ## What is promised -/

/-- Since a call was listed, no reply with its id has been heard. -/
def Unheard (past : List Event) (number : Nat) : Prop :=
  ∃ before since, past = before ++ .go number .list :: since ∧
    ∀ frame, .receive frame ∈ since → frame.target? ≠ some (idOf number)

/-- The event at a place of a course brings a call its reply: a message that is this reply, with the
id of the call, and the first such since the call was listed. -/
structure Brings (past : List Event) (place number : Nat) (reply : Reply) : Prop where
  message : ∃ frame, past[place]? = some (.receive frame) ∧ frame.reply? = some reply
  own : reply.number? = some (idOf number)
  first : Unheard (past.take place) number

theorem Unheard.snoc {past : List Event} {event : Event} (h : Unheard past number)
    (hevent : ∀ frame, event = .receive frame → frame.target? ≠ some (idOf number)) :
    Unheard (past ++ [event]) number := by
  obtain ⟨before, since, rfl, hsince⟩ := h
  refine ⟨before, since ++ [event], by simp, fun frame hframe => ?_⟩
  rcases List.mem_append.1 hframe with hold | hnew
  · exact hsince frame hold
  · exact hevent frame (List.mem_singleton.1 hnew).symm

theorem Brings.snoc {past : List Event} {place : Nat} {reply : Reply} (event : Event)
    (h : Brings past place number reply) : Brings (past ++ [event]) place number reply := by
  obtain ⟨⟨frame, hframe, hreply⟩, hown, hfirst⟩ := h
  have hlt : place < past.length := (List.getElem?_eq_some_iff.1 hframe).1
  refine ⟨⟨frame, ?_, hreply⟩, hown, ?_⟩
  · rwa [List.getElem?_append_left hlt]
  · rwa [List.take_append_of_le_length (Nat.le_of_lt hlt)]

theorem Brings.lt_length {past : List Event} {place : Nat} {reply : Reply}
    (h : Brings past place number reply) : place < past.length := by
  obtain ⟨frame, hframe, -⟩ := h.message
  exact (List.getElem?_eq_some_iff.1 hframe).1

/-- A reply with the id of a call that waits is for the call. -/
theorem recipient?_of_target {frame : Frame} {id : Nat} (hpending : c.pending[id]? = some number)
    (htarget : frame.target? = some id) : c.recipient? frame = some number := by
  rw [recipient?, htarget]
  exact hpending

/-! ## Who waits, and what was passed on -/

/-- Who waits is listed since no reply came, and what a call has got was brought to it alone. -/
structure Routed (past : List Event) (c : Connection) (source : Nat → Nat) : Prop where
  waits : ∀ id number, c.pending[id]? = some number →
    id = idOf number ∧ Unheard past number ∧ c.inbox? number = none ∧
      ∃ phase, c.phase? number = some phase ∧ phase.Waits
  brought : ∀ number reply, c.inbox? number = some reply →
    Brings past (source number) number reply
  apart : ∀ i j a b, c.inbox? i = some a → c.inbox? j = some b → source i = source j → i = j
  taken : ∀ number reply, c.phase? number = some (.ended (.replied reply)) →
    c.inbox? number = some reply
  fresh : ∀ number, c.phase? number = some .begun → c.inbox? number = none

namespace Routed

variable {past : List Event} {source : Nat → Nat}

theorem empty (source : Nat → Nat) : Routed [] {} source where
  waits _ _ h := by simp at h
  brought _ _ h := by simp [inbox?] at h
  apart _ _ _ _ h := by simp [inbox?] at h
  taken _ _ h := by simp [phase?] at h
  fresh _ h := by simp [phase?] at h

/-- A turn that touches no call and lists nobody, and a message for nobody. -/
theorem quiet (h : Routed past c source) {event : Event}
    (hphase : ∀ number, d.phase? number = c.phase? number)
    (hinbox : ∀ number, d.inbox? number = c.inbox? number)
    (hpending : ∀ (id number : Nat), d.pending[id]? = some number → c.pending[id]? = some number)
    (hevent : ∀ frame, event = .receive frame → c.recipient? frame = none) :
    Routed (past ++ [event]) d source where
  waits id number hnumber := by
    obtain ⟨rfl, hunheard, hnone, hwaits⟩ := h.waits id number (hpending id number hnumber)
    rw [hinbox, hphase]
    refine ⟨rfl, hunheard.snoc fun frame hframe htarget => ?_, hnone, hwaits⟩
    have hfor := recipient?_of_target (hpending _ _ hnumber) htarget
    rw [hevent frame hframe] at hfor
    cases hfor
  brought number reply hreply := by
    rw [hinbox] at hreply
    exact (h.brought number reply hreply).snoc event
  apart i j a b hi hj := by
    rw [hinbox] at hi hj
    exact h.apart i j a b hi hj
  taken number reply hover := by
    rw [hphase] at hover
    rw [hinbox]
    exact h.taken number reply hover
  fresh number hbegun := by
    rw [hphase] at hbegun
    rw [hinbox]
    exact h.fresh number hbegun

theorem begin (h : Routed past c source) (call : Rpc.Call) :
    Routed (past ++ [.begin call]) { c with callers := c.callers ++ [{ call }] } source where
  waits id number hnumber := by
    obtain ⟨hid, hunheard, hnone, phase, hphase, hwaits⟩ := h.waits id number hnumber
    rw [inbox?_begin, phase?_begin]
    refine ⟨hid, hunheard.snoc nofun, hnone, phase, ?_, hwaits⟩
    rwa [if_neg (Nat.ne_of_lt (lt_length_of_phase? hphase))]
  brought number reply hreply := by
    rw [inbox?_begin] at hreply
    exact (h.brought number reply hreply).snoc _
  apart i j a b hi hj := by
    rw [inbox?_begin] at hi hj
    exact h.apart i j a b hi hj
  taken number reply hover := by
    rw [phase?_begin] at hover
    rw [inbox?_begin]
    split at hover
    · cases hover
    · exact h.taken number reply hover
  fresh number hbegun := by
    rw [phase?_begin] at hbegun
    rw [inbox?_begin]
    split at hbegun
    · rename_i hnew
      exact inbox?_of_length_le (Nat.le_of_eq hnew.symm)
    · exact h.fresh number hbegun

/-- Those who were listed before a move of a call. -/
theorem waits_moved (h : Routed past c source) {caller : Caller} {move : Move} {phase : Phase}
    (hcaller : c.callers[number]? = some caller) {id other : Nat}
    (hother : c.pending[id]? = some other) (hwaits : other = number → phase.Waits) :
    id = idOf other ∧ Unheard (past ++ [.go number move]) other ∧
      (c.moved number caller move phase).inbox? other = none ∧
      ∃ phase', (c.moved number caller move phase).phase? other = some phase' ∧ phase'.Waits := by
  obtain ⟨hid, hunheard, hnone, old, hphase, hold⟩ := h.waits id other hother
  rw [inbox?_moved hcaller, phase?_moved hcaller]
  refine ⟨hid, hunheard.snoc nofun, hnone, ?_⟩
  split
  · rename_i hsame
    exact ⟨phase, rfl, hwaits hsame⟩
  · exact ⟨old, hphase, hold⟩

/-- Those who wait after a move of a call: it may have been listed or unlisted by it. -/
theorem waits_go (h : Routed past c source) {caller : Caller} {move : Move} {phase : Phase}
    (hcaller : c.callers[number]? = some caller) (hturn : Turn c caller move phase) {id other : Nat}
    (hother : (c.moved number caller move phase).pending[id]? = some other) :
    id = idOf other ∧ Unheard (past ++ [.go number move]) other ∧
      (c.moved number caller move phase).inbox? other = none ∧
      ∃ phase', (c.moved number caller move phase).phase? other = some phase' ∧ phase'.Waits := by
  cases hturn with
  | list hphase =>
    have hnone := h.fresh number (by rw [phase?_of_caller hcaller, hphase])
    have hentry : (if idOf number = id then some number else c.pending[id]?) = some other := by
      simpa [moved, pendingAfter, Std.TreeMap.getElem?_insert] using hother
    split at hentry
    · rename_i hid
      cases hentry
      refine ⟨hid.symm, ⟨past, [], rfl, by simp⟩, ?_, .listed, ?_, trivial⟩
      · rwa [inbox?_moved hcaller]
      · rw [phase?_moved hcaller, if_pos rfl]
    · exact h.waits_moved hcaller hentry fun _ => trivial
  | write => exact h.waits_moved hcaller hother fun _ => trivial
  | fail failure _ hkeeps =>
    have hentry : c.pending[id]? = some other := by rwa [moved, hkeeps] at hother
    exact h.waits_moved hcaller hentry fun _ => trivial
  | take _ hinbox =>
    refine h.waits_moved hcaller hother fun hsame => ?_
    -- a call that has got its reply is not listed
    obtain ⟨-, -, hnone, -⟩ := h.waits id other hother
    rw [hsame, inbox?_of_caller hcaller, hinbox] at hnone
    cases hnone
  | unlist =>
    have hentry : (if idOf number = id then none else c.pending[id]?) = some other := by
      simpa [moved, pendingAfter, Std.TreeMap.getElem?_erase] using hother
    split at hentry
    · cases hentry
    · rename_i hid
      refine h.waits_moved hcaller hentry fun hsame => absurd ?_ hid
      rw [(h.waits id other hentry).1, hsame]

theorem go (h : Routed past c source) {caller : Caller} {move : Move} {phase : Phase}
    (hcaller : c.callers[number]? = some caller) (hturn : Turn c caller move phase) :
    Routed (past ++ [.go number move]) (c.moved number caller move phase) source where
  waits id other hother := h.waits_go hcaller hturn hother
  brought other reply hreply := by
    rw [inbox?_moved hcaller] at hreply
    exact (h.brought other reply hreply).snoc _
  apart i j a b hi hj := by
    rw [inbox?_moved hcaller] at hi hj
    exact h.apart i j a b hi hj
  taken other reply hover := by
    rw [phase?_moved hcaller] at hover
    rw [inbox?_moved hcaller]
    split at hover
    · rename_i hsame
      cases hover
      cases hturn with
      | take _ hinbox => rw [hsame, inbox?_of_caller hcaller, hinbox]
    · exact h.taken other reply hover
  fresh other hbegun := by
    rw [phase?_moved hcaller] at hbegun
    rw [inbox?_moved hcaller]
    split at hbegun
    · cases hbegun
      cases hturn
    · exact h.fresh other hbegun

/-- A message that is for a call has its id, and the call waits for it. -/
theorem recipient_waits (h : Routed past c source) {frame : Frame}
    (hto : c.recipient? frame = some number) :
    frame.target? = some (idOf number) ∧ Unheard past number ∧ c.inbox? number = none ∧
      ∃ phase, c.phase? number = some phase ∧ phase.Waits := by
  obtain ⟨id, htarget, hpending⟩ := Option.bind_eq_some_iff.1 hto
  obtain ⟨rfl, hwaits⟩ := h.waits id number hpending
  exact ⟨htarget, hwaits⟩

/-- The message that is passed on to a call brings it its reply. -/
theorem brings_pass (h : Routed past c source) {frame : Frame} {reply : Reply}
    (hreply : frame.reply? = some reply) (hto : c.recipient? frame = some number) :
    Brings (past ++ [.receive frame]) past.length number reply := by
  obtain ⟨htarget, hunheard, -⟩ := h.recipient_waits hto
  refine ⟨⟨frame, List.getElem?_concat_length, hreply⟩, ?_, ?_⟩
  · rwa [Frame.target?, hreply] at htarget
  · rwa [List.take_left]

/-- Those who wait while a reply is passed on to another call. -/
theorem waits_pass (h : Routed past c source) {frame : Frame} {reply : Reply}
    (hto : c.recipient? frame = some number) {id other : Nat}
    (hother : (c.pass number reply).pending[id]? = some other) :
    id = idOf other ∧ Unheard (past ++ [.receive frame]) other ∧
      (c.pass number reply).inbox? other = none ∧
      ∃ phase, (c.pass number reply).phase? other = some phase ∧ phase.Waits := by
  obtain ⟨htarget, -, -, phase, hphase, -⟩ := h.recipient_waits hto
  have hentry : (if idOf number = id then none else c.pending[id]?) = some other := by
    simpa [Connection.pass, Std.TreeMap.getElem?_erase] using hother
  split at hentry
  · cases hentry
  · rename_i hid
    -- who is left waits under another id, which the message does not have
    obtain ⟨rfl, hunheard, hnone, hwaits⟩ := h.waits id other hentry
    have hne : other ≠ number := fun hsame => hid (hsame ▸ rfl)
    rw [inbox?_pass c reply hphase, if_neg hne, phase?_pass]
    refine ⟨rfl, hunheard.snoc fun frame' hframe hsame => ?_, hnone, hwaits⟩
    cases hframe
    rw [htarget] at hsame
    exact hid (Option.some.inj hsame)

theorem pass (h : Routed past c source) {frame : Frame} {reply : Reply}
    (hreply : frame.reply? = some reply) (hto : c.recipient? frame = some number) :
    Routed (past ++ [.receive frame]) (c.pass number reply)
      (Function.update source number past.length) := by
  obtain ⟨-, -, -, phase, hphase, hwaits⟩ := h.recipient_waits hto
  have hinbox := inbox?_pass c reply hphase
  -- whoever has got a reply got it earlier
  have hearlier : ∀ other got, c.inbox? other = some got → source other ≠ past.length :=
    fun other got hgot => Nat.ne_of_lt (h.brought other got hgot).lt_length
  have hne : ∀ {other : Nat} {phase' : Phase}, c.phase? other = some phase' → ¬ phase'.Waits →
      other ≠ number := by
    rintro other phase' hother hnot rfl
    rw [hphase, Option.some.injEq] at hother
    exact hnot (hother ▸ hwaits)
  constructor
  case waits => exact fun id other hother => h.waits_pass hto hother
  case brought =>
    intro other got hgot
    rw [hinbox] at hgot
    split at hgot
    · rename_i hsame
      cases hgot
      rw [hsame, Function.update_self]
      exact h.brings_pass hreply hto
    · rename_i hother
      rw [Function.update_of_ne hother]
      exact (h.brought other got hgot).snoc _
  case apart =>
    intro i j a b hi hj hsame
    rw [hinbox] at hi hj
    split at hi <;> split at hj
    · rename_i hi' hj'
      rw [hi', hj']
    · rename_i hi' hj'
      rw [hi', Function.update_self, Function.update_of_ne hj'] at hsame
      exact absurd hsame.symm (hearlier j b hj)
    · rename_i hi' hj'
      rw [hj', Function.update_self, Function.update_of_ne hi'] at hsame
      exact absurd hsame (hearlier i a hi)
    · rename_i hi' hj'
      rw [Function.update_of_ne hi', Function.update_of_ne hj'] at hsame
      exact h.apart i j a b hi hj hsame
  case taken =>
    intro other got hended
    rw [phase?_pass] at hended
    rw [hinbox, if_neg (hne hended id)]
    exact h.taken other got hended
  case fresh =>
    intro other hbegun
    rw [phase?_pass] at hbegun
    rw [hinbox, if_neg (hne hbegun id)]
    exact h.fresh other hbegun

theorem after (h : Routed past c source) {event : Event} (hafter : c.after event = some d) :
    ∃ source', Routed (past ++ [event]) d source' := by
  cases happens_of_after hafter with
  | begin call => exact ⟨source, h.begin call⟩
  | go hcaller hturn => exact ⟨source, h.go hcaller hturn⟩
  | pass _ hreply hto => exact ⟨_, h.pass hreply hto⟩
  | hangUp =>
    exact ⟨source, h.quiet (fun _ => rfl) (fun _ => rfl) (fun _ _ h => h)
      fun frame hframe => by cases hframe; rfl⟩
  | ignore _ _ hto =>
    exact ⟨source, h.quiet (fun _ => rfl) (fun _ => rfl) (fun _ _ h => h)
      fun frame hframe => by cases hframe; exact hto⟩
  | clear =>
    exact ⟨source, h.quiet (fun _ => rfl) (fun _ => rfl) (fun _ _ h => by simp at h) nofun⟩
  | noticeClose | cancel | close | takeWriter | closeReturns =>
    exact ⟨source, h.quiet (fun _ => rfl) (fun _ => rfl) (fun _ _ h => h) nofun⟩

end Routed

end Connection

end ChainIndex.Node
