import TopicDirectory.Proofs.Observer.Observation

/-!
# The life of an observer

Between connecting and disconnecting an observer hands over the snapshot that it has fetched and then
newer and newer ones, and what it holds is the last of them, or the one before while the last is
being handed over (`Accounts`).  At other times it hands nothing over.  So it goes after every run of
moves (`attended_after`), whatever the others do and however the listener gets on.
-/

namespace TopicDirectory.Observation

open Client (Call Error Heard Listener)
open Link (Fault)

variable {t : Observation}

/-! ## The state -/

/-- The snapshots that a listener has handed over, the one being handed over among them: each is newer
than the one before, and the last but that one is held. -/
structure Accounts (l : Listener) (pending : Option Snapshot) (ss : List Snapshot) : Prop where
  held : ∃ past, ss = past ++ l.held :: pending.toList
  newer : ss.Pairwise fun s s' => s.generation < s'.generation

/-- What holds of an observer at every moment. -/
structure Sound (t : Observation) : Prop where
  /-- The log has every snapshot that was handed over. -/
  sink : sinkCalls t.log = t.observer.handed
  /-- No connection is left while there is another one. -/
  alone : t.observer.listener = none ∨ t.parting = none
  idle : t.worker? = none → t.pending = none ∧ current t.log = [] ∧
    ∀ s, lastCall? t.log ≠ some (.connected s)
  working : ∀ l, t.worker? = some l → Accounts l t.pending (current t.log) ∧
    ∃ s, lastCall? t.log = some (.connected s) ∧ (current t.log).head? = some s

theorem Accounts.fetched (s : Snapshot) : Accounts { held := s } none [s] where
  held := ⟨[], rfl⟩
  newer := List.pairwise_singleton _ s

theorem Accounts.of_held_eq {l l' : Listener} {pending : Option Snapshot} {ss : List Snapshot}
    (h : Accounts l pending ss) (hheld : l'.held = l.held) : Accounts l' pending ss where
  held := by
    rw [hheld]
    exact h.held
  newer := h.newer

/-- A snapshot that is newer than the one held is handed over. -/
theorem Accounts.handOver {l : Listener} {ss : List Snapshot} (h : Accounts l none ss)
    {s : Snapshot} (hlt : l.held.generation < s.generation) :
    Accounts l (some s) (ss ++ [s]) := by
  obtain ⟨past, rfl⟩ := h.held
  refine ⟨⟨past, by simp⟩, ?_⟩
  obtain ⟨-, -, hpast⟩ := List.pairwise_append.1 h.newer
  refine List.pairwise_append.2 ⟨h.newer, List.pairwise_singleton _ s, ?_⟩
  intro s₁ hs₁ s₂ hs₂
  obtain rfl := List.mem_singleton.1 hs₂
  rcases List.mem_append.1 hs₁ with hs₁ | hs₁
  · exact UInt64.lt_trans (hpast s₁ hs₁ l.held List.mem_cons_self) hlt
  · obtain rfl := List.mem_singleton.1 hs₁
    exact hlt

/-- What was handed over is held. -/
theorem Accounts.hold {l : Listener} {s : Snapshot} {ss : List Snapshot}
    (h : Accounts l (some s) ss) : Accounts { l with held := s } none ss where
  held := by
    obtain ⟨past, hss⟩ := h.held
    exact ⟨past ++ [l.held], by simp [hss]⟩
  newer := h.newer

/-! ## The listener -/

theorem worker?_withWorker {l : Listener} : (t.withWorker l).worker? = some l := by
  unfold withWorker worker?
  cases hlistener : t.observer.listener with
  | none => simp [hlistener]
  | some _ => rfl

@[simp] theorem pending_withWorker (l : Listener) : (t.withWorker l).pending = t.pending := by
  unfold withWorker
  split <;> rfl

@[simp] theorem log_withWorker (l : Listener) : (t.withWorker l).log = t.log := by
  unfold withWorker
  split <;> rfl

@[simp] theorem handed_withWorker (l : Listener) :
    (t.withWorker l).observer.handed = t.observer.handed := by
  unfold withWorker
  split <;> rfl

/-- A listener that is at work is that of the connection, or that of the one that is left. -/
theorem Sound.alone_withWorker (h : Sound t) (l : Listener) :
    (t.withWorker l).observer.listener = none ∨ (t.withWorker l).parting = none := by
  unfold withWorker
  cases hlistener : t.observer.listener with
  | none => exact .inl hlistener
  | some _ =>
    rcases h.alone with hnone | hnone
    · rw [hlistener] at hnone
      cases hnone
    · exact .inr hnone

theorem Sound.inlet (h : Sound t) (inlet : Pipe) : Sound { t with inlet } :=
  ⟨h.sink, h.alone, h.idle, h.working⟩

/-- The listener at work may change as long as the account stays in order. -/
theorem Sound.withWorker (h : Sound t) {l l' : Listener} {pending : Option Snapshot}
    (hworker : t.worker? = some l) (haccounts : Accounts l' pending (current t.log)) :
    Sound { t.withWorker l' with pending } where
  sink := by
    show sinkCalls (t.withWorker l').log = (t.withWorker l').observer.handed
    rw [log_withWorker, handed_withWorker]
    exact h.sink
  alone := h.alone_withWorker l'
  idle hidle := by
    have hsome : (t.withWorker l').worker? = none := hidle
    rw [worker?_withWorker] at hsome
    cases hsome
  working l'' hl'' := by
    have hsome : (t.withWorker l').worker? = some l'' := hl''
    rw [worker?_withWorker] at hsome
    obtain rfl := Option.some.inj hsome
    show Accounts l' pending (current (t.withWorker l').log) ∧
      ∃ s, lastCall? (t.withWorker l').log = some (.connected s) ∧
        (current (t.withWorker l').log).head? = some s
    rw [log_withWorker]
    exact ⟨haccounts, (h.working l hworker).2⟩

/-- What becomes of an observer when its listener takes a message. -/
theorem hear_cases (t : Observation) :
    t.hear = t ∨ ∃ l inlet, t.worker? = some l ∧ t.pending = none ∧
      ((∃ s, l.held.generation < s.generation ∧ t.hear = { t.handOver s with inlet }) ∨
        ∃ running, t.hear = { t.withWorker { l with running } with inlet }) := by
  unfold hear
  cases hpending : t.pending with
  | some s => exact .inl rfl
  | none =>
    cases hworker : t.worker? with
    | none => exact .inl rfl
    | some l =>
      cases hrunning : l.running with
      | false => exact .inl (by simp [hrunning])
      | true =>
        cases hnext : Heard.next t.observer.config.messageSize.toNat t.inlet with
        | none => exact .inl (by simp [hrunning])
        | some found =>
          obtain ⟨heard, inlet⟩ := found
          refine .inr ⟨l, inlet, rfl, rfl, ?_⟩
          rcases l.hear_cases heard with ⟨s, hlt, heq⟩ | ⟨running, heq⟩
          · exact .inl ⟨s, hlt, by simp [hrunning, heq]⟩
          · exact .inr ⟨running, by simp [hrunning, heq]⟩

theorem Sound.handOver (h : Sound t) {l : Listener} (hworker : t.worker? = some l)
    (hpending : t.pending = none) {s : Snapshot} (hlt : l.held.generation < s.generation) :
    Sound (t.handOver s) where
  sink := by
    show sinkCalls (t.log ++ [.handed s]) = t.observer.handed ++ [s]
    rw [sinkCalls_handed, h.sink]
  alone := h.alone
  idle hidle := by
    have hnone : t.worker? = none := hidle
    rw [hworker] at hnone
    cases hnone
  working l' hl' := by
    have hsome : t.worker? = some l' := hl'
    rw [hworker] at hsome
    obtain rfl := Option.some.inj hsome
    obtain ⟨haccounts, fetched, hlast, hhead⟩ := h.working l hworker
    rw [hpending] at haccounts
    show Accounts l (some s) (current (t.log ++ [.handed s])) ∧
      ∃ s', lastCall? (t.log ++ [.handed s]) = some (.connected s') ∧
        (current (t.log ++ [.handed s])).head? = some s'
    rw [current_handed, lastCall?_handed]
    exact ⟨haccounts.handOver hlt, fetched, hlast, by rw [List.head?_append, hhead]; rfl⟩

theorem Sound.hear (h : Sound t) : Sound t.hear := by
  rcases hear_cases t with heq | ⟨l, inlet, hworker, hpending, ⟨s, hlt, heq⟩ | ⟨running, heq⟩⟩
  · rw [heq]
    exact h
  · rw [heq]
    exact (h.handOver hworker hpending hlt).inlet inlet
  · rw [heq]
    have haccounts : Accounts { l with running } t.pending (current t.log) :=
      (h.working l hworker).1.of_held_eq rfl
    have hsound := (h.withWorker hworker haccounts).inlet inlet
    rwa [← pending_withWorker { l with running }] at hsound

theorem Sound.hold (h : Sound t) : Sound t.hold := by
  unfold Observation.hold
  cases hpending : t.pending with
  | none => exact h
  | some s =>
    cases hworker : t.worker? with
    | none => exact h
    | some l =>
      have haccounts := (h.working l hworker).1
      rw [hpending] at haccounts
      exact h.withWorker hworker haccounts.hold

/-! ## The owner -/

theorem worker?_eq_none : t.worker? = none ↔ t.observer.listener = none ∧ t.parting = none := by
  unfold worker?
  cases t.observer.listener with
  | none => simp
  | some l => simp

/-- What becomes of an observer that connects. -/
theorem step_connect_cases (h : t.parting = none) (subscribed : Except Fault Pipe)
    (dialled : Except Error Unit) (answered : Except Fault (List UInt8)) :
    (∃ e, t.step (.connect subscribed dialled answered) =
        { t with log := t.log ++ [.failed e] }) ∨
      ∃ inlet s, t.observer.listener = none ∧ subscribed = .ok inlet ∧
        Call.snapshot.result answered = .ok s ∧
        t.step (.connect subscribed dialled answered) =
          { t with
            observer := { t.observer with
              listener := some { held := s }
              handed := t.observer.handed ++ [s] }
            inlet
            log := t.log ++ [.handed s, .connected s] } := by
  obtain ⟨observer, parting, pending, inlet, log⟩ := t
  obtain rfl : parting = none := h
  dsimp only [step]
  rcases observer.attempt_cases subscribed dialled answered with
    ⟨e, heq⟩ | ⟨inlet, s, hlistener, hsubscribed, hanswered, heq⟩
  · rw [heq]
    exact .inl ⟨e, rfl⟩
  · rw [heq]
    exact .inr ⟨inlet, s, hlistener, hsubscribed, hanswered, rfl⟩

/-- A connected observer begins to disconnect. -/
theorem step_leave {l : Listener} (h : t.parting = none) (hlistener : t.observer.listener = some l) :
    t.step .leave =
      { t with observer := { t.observer with listener := none }, parting := some l } := by
  simp [step, h, Client.Observer.disconnect, hlistener]

theorem step_leave_of_none (h : t.parting = none) (hlistener : t.observer.listener = none) :
    t.step .leave = { t with log := t.log ++ [.failed .notConnected] } := by
  simp [step, h, Client.Observer.disconnect, hlistener]

theorem step_finish {l : Listener} (h : t.parting = some l) (hpending : t.pending = none) :
    t.step .finish = { t with parting := none, log := t.log ++ [.disconnected] } := by
  simp [step, h, hpending]

/-- A call that fails changes nothing. -/
theorem Sound.failed (h : Sound t) (e : Error) : Sound { t with log := t.log ++ [.failed e] } where
  sink := by
    rw [sinkCalls_failed]
    exact h.sink
  alone := h.alone
  idle hidle := by
    rw [current_failed, lastCall?_failed]
    exact h.idle hidle
  working l hl := by
    rw [current_failed, lastCall?_failed]
    exact h.working l hl

theorem Sound.connected (h : Sound t) (hlistener : t.observer.listener = none)
    (hparting : t.parting = none) (inlet : Pipe) (s : Snapshot) :
    Sound { t with
      observer := { t.observer with
        listener := some { held := s }
        handed := t.observer.handed ++ [s] }
      inlet
      log := t.log ++ [.handed s, .connected s] } where
  sink := by
    rw [sinkCalls_connected, h.sink]
  alone := .inr hparting
  idle hidle := by cases hidle
  working l hl := by
    obtain rfl := Option.some.inj hl
    obtain ⟨hpending, hcurrent, -⟩ := h.idle (worker?_eq_none.2 ⟨hlistener, hparting⟩)
    rw [current_connected, lastCall?_connected, hcurrent, List.nil_append]
    show Accounts { held := s } t.pending [s] ∧ _
    rw [hpending]
    exact ⟨.fetched s, s, rfl, rfl⟩

theorem Sound.left (h : Sound t) {l : Listener} (hlistener : t.observer.listener = some l) :
    Sound { t with observer := { t.observer with listener := none }, parting := some l } where
  sink := h.sink
  alone := .inl rfl
  idle hidle := by cases hidle
  working l' hl' := by
    obtain rfl := Option.some.inj hl'
    exact h.working l (by rw [worker?, hlistener])

theorem Sound.finished (h : Sound t) {l : Listener} (hparting : t.parting = some l)
    (hpending : t.pending = none) :
    Sound { t with parting := none, log := t.log ++ [.disconnected] } where
  sink := by
    rw [sinkCalls_disconnected]
    exact h.sink
  alone := .inr rfl
  idle hidle := by
    rw [current_disconnected, lastCall?_disconnected]
    exact ⟨hpending, rfl, nofun⟩
  working l' hl' := by
    have hlistener : t.observer.listener = none := by
      rcases h.alone with hnone | hnone
      · exact hnone
      · rw [hparting] at hnone
        cases hnone
    have hnone : worker? { t with parting := none, log := t.log ++ [.disconnected] } = none :=
      worker?_eq_none.2 ⟨hlistener, rfl⟩
    rw [hnone] at hl'
    cases hl'

theorem Sound.step (h : Sound t) (m : Move) : Sound (t.step m) := by
  cases m with
  | connect subscribed dialled answered =>
    cases hparting : t.parting with
    | some l =>
      dsimp only [Observation.step]
      rw [hparting]
      exact h
    | none =>
      rcases step_connect_cases hparting subscribed dialled answered with
        ⟨e, heq⟩ | ⟨inlet, s, hlistener, -, -, heq⟩
      · rw [heq]
        exact h.failed e
      · rw [heq]
        exact h.connected hlistener hparting inlet s
  | leave =>
    cases hparting : t.parting with
    | some l =>
      dsimp only [Observation.step]
      rw [hparting]
      exact h
    | none =>
      cases hlistener : t.observer.listener with
      | none =>
        rw [step_leave_of_none hparting hlistener]
        exact h.failed _
      | some l =>
        rw [step_leave hparting hlistener]
        exact h.left hlistener
  | finish =>
    cases hparting : t.parting with
    | none =>
      dsimp only [Observation.step]
      rw [hparting]
      exact h
    | some l =>
      cases hpending : t.pending with
      | none =>
        rw [step_finish hparting hpending]
        exact h.finished hparting hpending
      | some s =>
        dsimp only [Observation.step]
        rw [hparting, hpending]
        exact h
  | arrive octets => exact h.inlet _
  | lose => exact h.inlet _
  | hear => exact h.hear
  | hold => exact h.hold

theorem Sound.run (h : Sound t) (ms : List Move) : Sound (t.run ms) := by
  induction ms generalizing t with
  | nil => exact h
  | cons m ms ih => exact ih (h.step m)

theorem sound_new (config : Config.Client) : Sound (new config) where
  sink := rfl
  alone := .inl rfl
  idle _ := ⟨rfl, rfl, nofun⟩
  working _ h := by cases h

/-! ## What the owner can rely on -/

/-- What an owner can rely on at every moment. -/
structure Faithful (t : Observation) : Prop where
  /-- Between its calls, the observer is connected if the last one to succeed has connected it. -/
  connected : t.parting = none →
    (t.observer.listener.isSome = true ↔ ∃ s, lastCall? t.log = some (.connected s))
  /-- What is handed over for a connection is the snapshot that was fetched and then newer ones. -/
  handed (s : Snapshot) : lastCall? t.log = some (.connected s) →
    (current t.log).head? = some s ∧
      (current t.log).Pairwise fun s s' => s.generation < s'.generation
  /-- Nothing is handed over before the owner has connected or after it has disconnected. -/
  silent : (∀ s, lastCall? t.log ≠ some (.connected s)) → current t.log = []
  /-- The copy that is held was handed over, and it is the last one unless another is being handed
  over; so it is when the listener has stopped. -/
  copy (s : Snapshot) : t.observer.snapshot? = some s →
    s ∈ current t.log ∧ (t.pending = none → (current t.log).getLast? = some s)
  /-- The log has every snapshot that was handed over. -/
  sink : sinkCalls t.log = t.observer.handed

/-- What the next call of an owner does. -/
structure Obeys (t : Observation) : Prop where
  /-- Connecting fails and changes nothing, or it hands over the snapshot that was fetched. -/
  connect (subscribed : Except Fault Pipe) (dialled : Except Error Unit)
    (answered : Except Fault (List UInt8)) : t.parting = none →
    (∃ e, t.step (.connect subscribed dialled answered) =
        { t with log := t.log ++ [.failed e] }) ∨
      ∃ inlet s, t.observer.listener = none ∧ subscribed = .ok inlet ∧
        Call.snapshot.result answered = .ok s ∧
        t.step (.connect subscribed dialled answered) =
          { t with
            observer := { t.observer with
              listener := some { held := s }
              handed := t.observer.handed ++ [s] }
            inlet
            log := t.log ++ [.handed s, .connected s] }
  /-- A connected observer does not connect. -/
  connect_connected (subscribed : Except Fault Pipe) (dialled : Except Error Unit)
    (answered : Except Fault (List UInt8)) :
    t.parting = none → t.observer.listener.isSome = true →
      t.step (.connect subscribed dialled answered) =
        { t with log := t.log ++ [.failed .alreadyConnected] }
  /-- A connected observer disconnects as soon as its listener is between messages. -/
  disconnect (l : Listener) : t.parting = none → t.observer.listener = some l →
    t.pending = none →
      t.run [.leave, .finish] =
        { t with
          observer := { t.observer with listener := none }
          log := t.log ++ [.disconnected] }
  /-- Another one does not disconnect. -/
  disconnect_other : t.parting = none → t.observer.listener = none →
    t.step .leave = { t with log := t.log ++ [.failed .notConnected] }

theorem Sound.faithful (h : Sound t) : Faithful t where
  connected hparting := by
    cases hlistener : t.observer.listener with
    | none =>
      have hidle := h.idle (worker?_eq_none.2 ⟨hlistener, hparting⟩)
      exact ⟨nofun, fun ⟨s, hs⟩ => (hidle.2.2 s hs).elim⟩
    | some l =>
      obtain ⟨-, s, hlast, -⟩ := h.working l (by rw [worker?, hlistener])
      exact ⟨fun _ => ⟨s, hlast⟩, fun _ => rfl⟩
  handed s hs := by
    cases hworker : t.worker? with
    | none => exact ((h.idle hworker).2.2 s hs).elim
    | some l =>
      obtain ⟨haccounts, s', hlast, hhead⟩ := h.working l hworker
      rw [hlast] at hs
      obtain rfl := Event.connected.inj (Option.some.inj hs)
      exact ⟨hhead, haccounts.newer⟩
  silent hlast := by
    cases hworker : t.worker? with
    | none => exact (h.idle hworker).2.1
    | some l =>
      obtain ⟨-, s, hs, -⟩ := h.working l hworker
      exact (hlast s hs).elim
  copy s hs := by
    obtain ⟨l, hlistener, rfl⟩ := Option.map_eq_some_iff.1 hs
    obtain ⟨past, hcurrent⟩ := (h.working l (by rw [worker?, hlistener])).1.held
    rw [hcurrent]
    refine ⟨List.mem_append_right _ List.mem_cons_self, ?_⟩
    intro hpending
    rw [hpending]
    exact List.getLast?_concat
  sink := h.sink

theorem obeys (t : Observation) : Obeys t where
  connect subscribed dialled answered hparting :=
    step_connect_cases hparting subscribed dialled answered
  connect_connected subscribed dialled answered hparting hlistener := by
    obtain ⟨l, hl⟩ := Option.isSome_iff_exists.1 hlistener
    simp [step, hparting, t.observer.attempt_of_listener hl]
  disconnect l hparting hlistener hpending := by
    show (t.step .leave).step .finish = _
    rw [step_leave hparting hlistener]
    simp [step, hparting, hpending]
  disconnect_other hparting hlistener := step_leave_of_none hparting hlistener

/-- **An observer attends to its directory.**  Whatever calls its owner makes, whatever they meet
with, whatever comes on the subscription and however the listener gets on, the owner can rely on what
it was handed and on the copy that is held, and its next call does what it should.  On a network the
observer makes such moves. -/
theorem attended_after (config : Config.Client) (ms : List Move) :
    Faithful ((new config).run ms) ∧ Obeys ((new config).run ms) ∧
      ∀ inlet line heard n, Realized ⟨((new config).run ms).observer, inlet, line, heard⟩ n :=
  ⟨((sound_new config).run ms).faithful, obeys _, fun _ _ _ n => realized _ n⟩

end TopicDirectory.Observation
