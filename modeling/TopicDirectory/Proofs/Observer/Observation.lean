import TopicDirectory.Network.Parties
import TopicDirectory.Proofs.Observer.Listening

/-!
# An observer and its listener

The owner of an observer connects and disconnects, and a listener works in the background: it takes
a message, hands a newer snapshot over, and only then holds it (`Observation.Move`).  Disconnecting
takes time as well, since the listener is waited for.  The log tells what the owner sees: the
snapshots that are handed over and what the calls come to.  The observers of a network connect,
disconnect and listen in such moves (`realized`).
-/

namespace TopicDirectory

open Client (Call Error Heard Listener)
open Link (Fault)

/-! ## Listeners -/

namespace Client.Listener

/-- A listener hands a newer snapshot over and holds it, or goes on holding what it has. -/
theorem hear_cases (l : Listener) (heard : Heard) :
    (∃ s, l.held.generation < s.generation ∧ l.hear heard = ({ l with held := s }, some s)) ∨
      ∃ running, l.hear heard = ({ l with running }, none) := by
  cases heard with
  | snapshot s =>
    dsimp only [hear]
    split
    · rename_i hlt
      exact .inl ⟨s, hlt, rfl⟩
    · exact .inr ⟨l.running, rfl⟩
  | unreadable fault => exact .inr ⟨l.running, rfl⟩
  | foreign label => exact .inr ⟨false, rfl⟩
  | lost fault => exact .inr ⟨false, rfl⟩

variable {l : Listener} {p q : Pipe} {heard : Heard} {limit : Nat}

theorem run_of_none (h : Heard.next limit p = none) (n : Nat) : run limit n l p = ((l, []), p) := by
  cases n with
  | zero => rfl
  | succ n => rw [run, h, ite_self]

theorem run_of_some (hrunning : l.running = true) (h : Heard.next limit p = some (heard, q))
    (n : Nat) :
    run limit (n + 1) l p =
      (((run limit n (l.hear heard).1 q).1.1,
        (l.hear heard).2.toList ++ (run limit n (l.hear heard).1 q).1.2),
        (run limit n (l.hear heard).1 q).2) := by
  rw [run, if_pos hrunning, h]

end Client.Listener

/-! ## Connecting -/

namespace Client.Observer

/-- Connects, given what subscribing, calling the directory and asking it for its snapshot came to;
gives the subscription and the snapshot. -/
def attempt (o : Observer) (subscribed : Except Fault Pipe) (dialled : Except Error Unit)
    (answered : Except Fault (List UInt8)) : Except Error (Pipe × Snapshot) × Observer :=
  match o.connectFault?, subscribed, dialled with
  | some e, _, _ => (.error e, o)
  | none, .error fault, _ => (.error (.link fault), o)
  | none, .ok _, .error e => (.error e, o)
  | none, .ok inlet, .ok () =>
    let outcome := Call.snapshot.result answered
    let (result, observer) := o.connect outcome
    (result >>= fun _ => outcome.map fun s => (inlet, s), observer)

variable {o : Observer}

theorem listener_eq_none_of_connectFault? (h : o.connectFault? = none) : o.listener = none := by
  rw [connectFault?] at h
  split at h
  · cases h
  · rename_i hlistener
    exact Option.not_isSome_iff_eq_none.1 hlistener

/-- Connecting fails and changes nothing, or the directory has given a snapshot, which is handed
over. -/
theorem attempt_cases (o : Observer) (subscribed : Except Fault Pipe)
    (dialled : Except Error Unit) (answered : Except Fault (List UInt8)) :
    (∃ e, o.attempt subscribed dialled answered = (.error e, o)) ∨
      ∃ inlet s, o.listener = none ∧ subscribed = .ok inlet ∧
        Call.snapshot.result answered = .ok s ∧
        o.attempt subscribed dialled answered =
          (.ok (inlet, s), { o with listener := some { held := s }, handed := o.handed ++ [s] }) := by
  unfold attempt
  cases hfault : o.connectFault? with
  | some e => exact .inl ⟨e, rfl⟩
  | none =>
    rcases subscribed with fault | inlet
    · exact .inl ⟨.link fault, rfl⟩
    rcases dialled with e | ⟨⟩
    · exact .inl ⟨e, rfl⟩
    dsimp only
    unfold connect
    rw [hfault]
    rcases Call.snapshot.result answered with e | s
    · exact .inl ⟨e, rfl⟩
    · exact .inr ⟨inlet, s, listener_eq_none_of_connectFault? hfault, rfl, rfl, rfl⟩

/-- A connected observer does not connect again. -/
theorem attempt_of_listener {l : Listener} (h : o.listener = some l)
    (subscribed : Except Fault Pipe) (dialled : Except Error Unit)
    (answered : Except Fault (List UInt8)) :
    o.attempt subscribed dialled answered = (.error .alreadyConnected, o) := by
  have hfault : o.connectFault? = some .alreadyConnected := by
    rw [connectFault?, h]
    rfl
  unfold attempt
  rw [hfault]

end Client.Observer

/-! ## Moves -/

namespace Observation

/-- What the owner of an observer sees. -/
inductive Event
  | handed (s : Snapshot)
  | connected (fetched : Snapshot)
  | disconnected
  | failed (e : Error)
deriving DecidableEq

end Observation

/-- An observer; the listener of the connection that it is leaving; the snapshot that is being handed
over and is not held yet; what has come on the subscription; and what the owner has seen. -/
structure Observation where
  observer : Client.Observer
  parting : Option Listener := none
  pending : Option Snapshot := none
  inlet : Pipe := {}
  log : List Observation.Event := []
deriving DecidableEq

namespace Observation

/-- What can be done next. -/
inductive Move
  /-- The owner connects. -/
  | connect (subscribed : Except Fault Pipe) (dialled : Except Error Unit)
      (answered : Except Fault (List UInt8))
  /-- The owner begins to disconnect. -/
  | leave
  /-- The listener, told to stop, has stopped, and the owner is disconnected. -/
  | finish
  /-- Octets come on the subscription. -/
  | arrive (octets : List UInt8)
  /-- The subscription is lost. -/
  | lose
  /-- The listener takes a message; a snapshot that is newer than the one held is handed over. -/
  | hear
  /-- The listener holds the snapshot that it has handed over. -/
  | hold

variable (t : Observation)

/-- The listener that is at work. -/
def worker? : Option Listener :=
  match t.observer.listener with
  | some l => some l
  | none => t.parting

/-- The listener that is at work, replaced. -/
def withWorker (l : Listener) : Observation :=
  match t.observer.listener with
  | some _ => { t with observer := { t.observer with listener := some l } }
  | none => { t with parting := some l }

/-- Hands a snapshot over. -/
def handOver (s : Snapshot) : Observation :=
  { t with
    observer := { t.observer with handed := t.observer.handed ++ [s] }
    pending := some s
    log := t.log ++ [.handed s] }

/-- Lets the listener take a message, unless it is handing a snapshot over or has stopped. -/
def hear : Observation :=
  match t.pending, t.worker? with
  | none, some l =>
    if l.running then
      match Heard.next t.observer.config.messageSize.toNat t.inlet with
      | none => t
      | some (heard, inlet) =>
        match l.hear heard with
        | (l, none) => { t.withWorker l with inlet }
        | (_, some s) => { t.handOver s with inlet }
    else t
  | _, _ => t

/-- Lets the listener hold what it has handed over. -/
def hold : Observation :=
  match t.pending, t.worker? with
  | some s, some l => { t.withWorker { l with held := s } with pending := none }
  | _, _ => t

/-- Makes a move, if it can be made: the owner makes one call at a time. -/
def step : Move → Observation
  | .connect subscribed dialled answered =>
    match t.parting, t.observer.attempt subscribed dialled answered with
    | some _, _ => t
    | none, (.error e, observer) => { t with observer, log := t.log ++ [.failed e] }
    | none, (.ok (inlet, s), observer) =>
      { t with observer, inlet, log := t.log ++ [.handed s, .connected s] }
  | .leave =>
    match t.parting, t.observer.disconnect with
    | some _, _ => t
    | none, (.error e, observer) => { t with observer, log := t.log ++ [.failed e] }
    | none, (.ok (), observer) => { t with observer, parting := t.observer.listener }
  | .finish =>
    match t.parting, t.pending with
    | some _, none => { t with parting := none, log := t.log ++ [.disconnected] }
    | _, _ => t
  | .arrive octets => { t with inlet := t.inlet.write octets }
  | .lose => { t with inlet := t.inlet.close }
  | .hear => t.hear
  | .hold => t.hold

/-- Makes moves one after the other. -/
def run (ms : List Move) : Observation := ms.foldl step t

/-- An observer that has not done anything yet. -/
def new (config : Config.Client) : Observation := { observer := { config } }

/-! ## The log -/

/-- The snapshots that were handed over. -/
def sinkCalls (log : List Event) : List Snapshot :=
  log.filterMap fun
    | .handed s => some s
    | _ => none

/-- Whether an event is the end of a call that has succeeded. -/
def Event.succeeded : Event → Bool
  | connected _ | disconnected => true
  | handed _ | failed _ => false

/-- The last call that has succeeded. -/
def lastCall? (log : List Event) : Option Event := (log.filter Event.succeeded).getLast?

/-- Of the snapshots handed over since the last time the owner had disconnected, those after one more
event. -/
def Event.after (ss : List Snapshot) : Event → List Snapshot
  | handed s => ss ++ [s]
  | disconnected => []
  | connected _ | failed _ => ss

/-- The snapshots that were handed over since the last time the owner had disconnected. -/
def current (log : List Event) : List Snapshot := log.foldl Event.after []

variable (log : List Event) (s : Snapshot) (e : Error)

@[simp] theorem current_handed : current (log ++ [.handed s]) = current log ++ [s] := by
  simp [current, Event.after]

@[simp] theorem current_failed : current (log ++ [.failed e]) = current log := by
  simp [current, Event.after]

@[simp] theorem current_disconnected : current (log ++ [.disconnected]) = [] := by
  simp [current, Event.after]

@[simp] theorem current_connected :
    current (log ++ [.handed s, .connected s]) = current log ++ [s] := by
  simp [current, Event.after]

@[simp] theorem lastCall?_handed : lastCall? (log ++ [.handed s]) = lastCall? log := by
  simp [lastCall?, Event.succeeded]

@[simp] theorem lastCall?_failed : lastCall? (log ++ [.failed e]) = lastCall? log := by
  simp [lastCall?, Event.succeeded]

@[simp] theorem lastCall?_disconnected :
    lastCall? (log ++ [.disconnected]) = some .disconnected := by
  simp [lastCall?, Event.succeeded]

@[simp] theorem lastCall?_connected :
    lastCall? (log ++ [.handed s, .connected s]) = some (.connected s) := by
  simp [lastCall?, Event.succeeded]

@[simp] theorem sinkCalls_handed : sinkCalls (log ++ [.handed s]) = sinkCalls log ++ [s] := by
  simp [sinkCalls]

@[simp] theorem sinkCalls_failed : sinkCalls (log ++ [.failed e]) = sinkCalls log := by
  simp [sinkCalls]

@[simp] theorem sinkCalls_disconnected :
    sinkCalls (log ++ [.disconnected]) = sinkCalls log := by
  simp [sinkCalls]

@[simp] theorem sinkCalls_connected :
    sinkCalls (log ++ [.handed s, .connected s]) = sinkCalls log ++ [s] := by
  simp [sinkCalls]

/-! ## Listening -/

variable {t}

/-- One message is taken, and what is handed over is held. -/
theorem run_hear_hold {l : Listener} {heard : Heard} {inlet : Pipe} (hpending : t.pending = none)
    (hlistener : t.observer.listener = some l) (hrunning : l.running = true)
    (hnext : Heard.next t.observer.config.messageSize.toNat t.inlet = some (heard, inlet)) :
    (t.run [.hear, .hold]).observer =
        { t.observer with
          listener := some (l.hear heard).1
          handed := t.observer.handed ++ (l.hear heard).2.toList } ∧
      (t.run [.hear, .hold]).inlet = inlet ∧ (t.run [.hear, .hold]).pending = none := by
  obtain ⟨⟨config, listener, handed⟩, parting, pending, inlet', log⟩ := t
  obtain rfl : pending = none := hpending
  obtain rfl : listener = some l := hlistener
  have hnext' : Heard.next config.messageSize.toNat inlet' = some (heard, inlet) := hnext
  rcases l.hear_cases heard with ⟨s, -, heq⟩ | ⟨running, heq⟩
  · simp [run, step, Observation.hear, hold, worker?, withWorker, handOver, hrunning, hnext', heq]
  · simp [run, step, Observation.hear, hold, worker?, withWorker, hrunning, hnext', heq]

/-- What a listener does by itself it does by taking one message after the other. -/
theorem run_listener (n : Nat) {l : Listener} (hpending : t.pending = none)
    (hlistener : t.observer.listener = some l) :
    ∃ ms : List Move, (∀ m ∈ ms, m = .hear ∨ m = .hold) ∧
      let r := Listener.run t.observer.config.messageSize.toNat n l t.inlet
      (t.run ms).observer =
          { t.observer with listener := some r.1.1, handed := t.observer.handed ++ r.1.2 } ∧
        (t.run ms).inlet = r.2 := by
  have hstay : t.observer =
      { t.observer with listener := some l, handed := t.observer.handed ++ [] } := by
    rw [List.append_nil, ← hlistener]
  induction n generalizing t l with
  | zero => exact ⟨[], List.forall_mem_nil _, hstay, rfl⟩
  | succ n ih =>
    cases hrunning : l.running with
    | false =>
      rw [Listener.run_of_stopped _ _ hrunning]
      exact ⟨[], List.forall_mem_nil _, hstay, rfl⟩
    | true =>
      cases hnext : Heard.next t.observer.config.messageSize.toNat t.inlet with
      | none =>
        rw [Listener.run_of_none hnext]
        exact ⟨[], List.forall_mem_nil _, hstay, rfl⟩
      | some found =>
        obtain ⟨heard, inlet⟩ := found
        rw [Listener.run_of_some hrunning hnext]
        obtain ⟨hobserver, hinlet, hpending'⟩ := run_hear_hold hpending hlistener hrunning hnext
        have hlistener' : (t.run [.hear, .hold]).observer.listener = some (l.hear heard).1 := by
          rw [hobserver]
        obtain ⟨ms, hms, hobserver', hinlet'⟩ := ih hpending' hlistener' (by
          rw [List.append_nil, ← hlistener'])
        rw [hobserver, hinlet] at hobserver' hinlet'
        refine ⟨.hear :: .hold :: ms, ?_, ?_, hinlet'⟩
        · intro m hm
          rcases List.mem_cons.1 hm with rfl | hm
          · exact .inl rfl
          rcases List.mem_cons.1 hm with rfl | hm
          · exact .inr rfl
          · exact hms m hm
        · show ((t.run [.hear, .hold]).run ms).observer = _
          rw [hobserver', List.append_assoc]

/-! ## On a network -/

/-- On the network, the observer connects, disconnects and listens in moves. -/
structure Realized (o : Network.Observing) (n : Network) : Prop where
  connect : ∃ subscribed dialled answered,
    let attempt := o.observer.attempt subscribed dialled answered
    (o.connect n).1 = (attempt.1.map fun _ => ()) ∧ (o.connect n).2.1.observer = attempt.2
  disconnect : (o.disconnect n).1 = o.observer.disconnect.1 ∧
    (o.disconnect n).2.1.observer = o.observer.disconnect.2
  listen (p : Pipe) : ∃ ms : List Move, (∀ m ∈ ms, m = .hear ∨ m = .hold) ∧
    (run { observer := o.observer, inlet := p } ms).observer = (o.observer.listen p).1 ∧
      (run { observer := o.observer, inlet := p } ms).inlet = (o.observer.listen p).2

theorem realized_connect (o : Network.Observing) (n : Network) :
    ∃ subscribed dialled answered,
      let attempt := o.observer.attempt subscribed dialled answered
      (o.connect n).1 = (attempt.1.map fun _ => ()) ∧ (o.connect n).2.1.observer = attempt.2 := by
  unfold Network.Observing.connect Client.Observer.attempt
  cases hfault : o.observer.connectFault? with
  | some e => exact ⟨.error .closed, .ok (), .error .closed, rfl, rfl⟩
  | none =>
    dsimp only
    rcases n.subscribe _ _ _ with ⟨fault | inlet, n₁⟩
    · exact ⟨.error fault, .ok (), .error .closed, rfl, rfl⟩
    dsimp only
    rcases n₁.dial _ with ⟨e | line, n₂⟩
    · exact ⟨.ok {}, .error e, .error .closed, rfl, rfl⟩
    refine ⟨.ok {}, .ok (), ?_⟩
    dsimp only [Network.perform]
    rcases n₂.request line _ with ⟨answered, line', n₃⟩
    refine ⟨answered, ?_⟩
    dsimp only [Client.Observer.connect]
    rw [hfault]
    rcases Call.snapshot.result answered with e | s
    · exact ⟨rfl, rfl⟩
    · exact ⟨rfl, rfl⟩

theorem realized (o : Network.Observing) (n : Network) : Realized o n where
  connect := realized_connect o n
  disconnect := ⟨rfl, rfl⟩
  listen p := by
    unfold Client.Observer.listen
    cases hlistener : o.observer.listener with
    | none => exact ⟨[], List.forall_mem_nil _, rfl, rfl⟩
    | some l =>
      exact run_listener (t := { observer := o.observer, inlet := p }) (p.unread.length + 1) rfl
        hlistener

end Observation

end TopicDirectory
