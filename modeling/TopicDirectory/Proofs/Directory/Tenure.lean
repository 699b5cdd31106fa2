import TopicDirectory.Proofs.Directory.Generations
import TopicDirectory.Proofs.Exchange.Host

/-!
# A directory from its start to its end

What a directory keeps besides its registry, the snapshot that those who run it see and what it
counts, follows from the requests that it has handled (`Tenure.Balanced`).  Each request that was
put into the queue is handled in full or not at all (`Tenure.Handles`, `Tenure.Keeps`), and none is
handled after the directory was told to stop.

A `Tenure` is a directory with the requests that have come into its queue and those that have left
it.  Its moves are the steps of the directory, in any order, with whatever others do to the
connections in between, and the stop; the running directory makes no others (`leads_settle`).
-/

namespace TopicDirectory

open Directory (Server State dispatch respond)
open Exchange (Action Desk Host Peer)

/-- A directory, the requests that were put into its queue and those that were taken out, each with
the number of its peer. -/
structure Tenure where
  server : Server
  arrived : List (Nat × List UInt8) := []
  handled : List (Nat × List UInt8) := []

namespace Tenure

/-- What can happen next. -/
inductive Move
  /-- Somebody connects. -/
  | call
  /-- Something becomes of a connection. -/
  | link (i : Nat) (l : Link)
  /-- The directory finds that a peer has left. -/
  | leave (i : Nat)
  /-- The directory learns on which connections something has come. -/
  | look
  /-- The directory takes a step. -/
  | serve (a : Action)
  /-- Something becomes of the feed of the snapshots. -/
  | feed (f : Feed)
  /-- The directory is told to stop. -/
  | stop
  /-- A directory that was told to stop leaves everybody. -/
  | close

/-- A directory that has just been started. -/
def new (c : Config.Server) : Tenure := { server := .new c }

/-- The requests that a step puts into the queue. -/
def queuedBy (s : Server) : Action → List (Nat × List UInt8)
  | .enqueue i =>
    match s.host.peers[i]? with
    | some ⟨_, .holding request⟩ => [(i, request)]
    | _ => []
  | _ => []

/-- The requests that a step takes out of the queue. -/
def takenBy (s : Server) : Action → List (Nat × List UInt8)
  | .dispatch => s.host.queue.take 1
  | _ => []

/-- A step of the directory. -/
def serve (t : Tenure) (a : Action) : Tenure :=
  match Desk.step? respond t.server a with
  | some server =>
    { server
      arrived := t.arrived ++ queuedBy t.server a
      handled := t.handled ++ takenBy t.server a }
  | none => t

/-- Makes a move, if it can be made. -/
def step (t : Tenure) : Move → Tenure
  | .call => { t with server.host := t.server.host.call.1 }
  | .link i l =>
    { t with server.host.peers := t.server.host.peers.modify i fun p => { p with link := l } }
  | .leave i => { t with server.host.peers := t.server.host.peers.modify i Peer.leave }
  | .look => { t with server.host := t.server.host.look }
  | .serve a => t.serve a
  | .feed f => { t with server := t.server.withFeed f }
  | .stop => { t with server := t.server.stop }
  | .close =>
    if t.server.host.listening then t else { t with server.host := t.server.host.close }

/-- Makes moves one after the other. -/
def run (t : Tenure) (ms : List Move) : Tenure := ms.foldl step t

/-- The requests that were handled. -/
def requests (t : Tenure) : List (List UInt8) := t.handled.map Prod.snd

/-- The snapshots of the changes so far. -/
def versions (t : Tenure) : List Snapshot := Registry.versions {} t.requests

/-- What the directory counts. -/
def statistics (t : Tenure) : Directory.Statistics := t.server.state.broadcaster.statistics

/-! ## What is said of one move -/

/-- A request is handled in full: the oldest one leaves the queue and is carried out; its reply is
handed over, if its peer still waits for it; a change is broadcast and can be seen. -/
structure Handles (t t' : Tenure) (i : Nat) (request : List UInt8) : Prop where
  running : t.server.running = true
  queue : t.server.host.queue = (i, request) :: t'.server.host.queue
  arrived : t'.arrived = t.arrived
  handled : t'.handled = t.handled ++ [(i, request)]
  registry : t'.server.state.registry
    = (dispatch t.server.state.registry request).registry t.server.state.registry
  reply : ∀ p, t.server.host.peers[i]? = some p → p.phase = .waiting →
    t'.server.host.peers[i]? = some { p with
      phase := .answering (dispatch t.server.state.registry request).reply.encode }
  others : ∀ j, j ≠ i → t'.server.host.peers[j]? = t.server.host.peers[j]?
  unchanged : (dispatch t.server.state.registry request).changed = none →
    t'.server.state = t.server.state
  changed : ∀ r, (dispatch t.server.state.registry request).changed = some r →
    t'.server.feed = (t.server.feed.send ⟨"DIR", Wire.encodeSnapshot r.snapshot⟩).2 ∧
    t'.server.state.published = r.snapshot ∧
    t'.statistics = { t.statistics with
      snapshots := t.statistics.snapshots + 1
      octets := t.statistics.octets + UInt64.ofNat (Wire.encodeSnapshot r.snapshot).length }

/-- Nobody was handed a reply: whoever has one had it before. -/
def Unanswered (ps ps' : List Peer) : Prop :=
  ∀ (i : Nat) (p' : Peer) (reply : List UInt8), ps'[i]? = some p' → p'.phase = .answering reply →
    ∃ p, ps[i]? = some p ∧ p.phase = .answering reply

/-- No request is handled: the registry, the snapshot that can be seen and what is counted stay as
they are, nobody is handed a reply, and what is in the queue stays there. -/
structure Keeps (t t' : Tenure) : Prop where
  queue : ∃ new, t'.arrived = t.arrived ++ new ∧
    t'.server.host.queue = t.server.host.queue ++ new
  handled : t'.handled = t.handled
  registry : t'.server.state.registry = t.server.state.registry
  published : t'.server.state.published = t.server.state.published
  statistics : t'.statistics = t.statistics
  replies : Unanswered t.server.host.peers t'.server.host.peers

/-- What is kept and counted follows from the requests that were handled. -/
structure Balanced (t : Tenure) : Prop where
  registry : t.server.state.registry = Registry.fed {} t.requests
  published : t.server.state.published = t.server.state.registry.snapshot
  size : t.server.state.published.size = t.server.state.registry.size
  snapshots : t.statistics.snapshots = t.server.state.registry.generation
  octets : t.statistics.octets
    = UInt64.ofNat (t.versions.foldl (fun n x => n + (Wire.encodeSnapshot x).length) 0)
  encodeErrors : t.statistics.encodeErrors = 0
  generations : t.versions.map (·.generation) = (List.range' 1 t.versions.length).map UInt64.ofNat
  current : t.server.state.registry.snapshot = t.versions.getLastD {}

/-! ## Moves that handle nothing -/

namespace Unanswered

variable {ps : List Peer}

theorem refl (ps : List Peer) : Unanswered ps ps := fun _ p _ hp hphase => ⟨p, hp, hphase⟩

theorem concat (ps : List Peer) : Unanswered ps (ps ++ [({} : Peer)]) := by
  intro i p reply hp hphase
  rcases Nat.lt_or_ge i ps.length with hi | hi
  · rw [List.getElem?_append_left hi] at hp
    exact ⟨p, hp, hphase⟩
  · rw [List.getElem?_append_right hi] at hp
    obtain rfl := List.mem_singleton.1 (List.mem_of_getElem? hp)
    cases hphase

theorem modify (i : Nat) {f : Peer → Peer}
    (hf : ∀ p reply, (f p).phase = .answering reply → p.phase = .answering reply) :
    Unanswered ps (ps.modify i f) := by
  intro j p' reply hp' hphase
  rw [List.getElem?_modify] at hp'
  obtain ⟨p, hp, rfl⟩ := Option.map_eq_some_iff.1 hp'
  refine ⟨p, hp, ?_⟩
  split at hphase
  · exact hf p reply hphase
  · exact hphase

theorem set (i : Nat) {q : Peer} (hq : ∀ reply, q.phase ≠ .answering reply) :
    Unanswered ps (ps.set i q) := by
  intro j p' reply hp' hphase
  rw [List.getElem?_set] at hp'
  split at hp'
  · split at hp'
    · cases hp'
      exact absurd hphase (hq reply)
    · cases hp'
  · exact ⟨p', hp', hphase⟩

theorem leave (ps : List Peer) : Unanswered ps (ps.map Peer.leave) := by
  intro i p' reply hp' hphase
  rw [List.getElem?_map] at hp'
  obtain ⟨p, -, rfl⟩ := Option.map_eq_some_iff.1 hp'
  cases hphase

end Unanswered

namespace Keeps

theorem refl (t : Tenure) : Keeps t t :=
  ⟨⟨[], by simp⟩, rfl, rfl, rfl, rfl, .refl _⟩

theorem trans {t t' t'' : Tenure} (h : Keeps t t') (h' : Keeps t' t'') : Keeps t t'' where
  queue := by
    obtain ⟨new, harrived, hqueue⟩ := h.queue
    obtain ⟨new', harrived', hqueue'⟩ := h'.queue
    refine ⟨new ++ new', ?_, ?_⟩
    · rw [harrived', harrived, List.append_assoc]
    · rw [hqueue', hqueue, List.append_assoc]
  handled := h'.handled.trans h.handled
  registry := h'.registry.trans h.registry
  published := h'.published.trans h.published
  statistics := h'.statistics.trans h.statistics
  replies i p'' reply hp'' hphase := by
    obtain ⟨p', hp', hphase'⟩ := h'.replies i p'' reply hp'' hphase
    exact h.replies i p' reply hp' hphase'

end Keeps

variable {t : Tenure}

/-- A step on one connection after which its peer does not have a reply. -/
theorem keeps_host {h : Host} {i : Nat} {q : Peer} {new : List (Nat × List UInt8)}
    (hpeers : h.peers = t.server.host.peers.set i q) (hqueue : h.queue = t.server.host.queue ++ new)
    (hq : ∀ reply, q.phase ≠ .answering reply) :
    Keeps t
      { server := { t.server with host := h }
        arrived := t.arrived ++ new
        handled := t.handled ++ [] } :=
  ⟨⟨new, rfl, hqueue⟩, List.append_nil _, rfl, rfl, rfl, hpeers ▸ Unanswered.set i hq⟩

/-! ## The steps of the directory -/

/-- The oldest request is handled in full. -/
theorem handles_dispatch {i : Nat} {request : List UInt8} {rest : List (Nat × List UInt8)}
    (hrunning : t.server.host.listening = true)
    (hqueue : t.server.host.queue = (i, request) :: rest) :
    Handles t
      { server :=
          { host := { t.server.host with queue := rest }.hand i (respond t.server.state request).1
            state := (respond t.server.state request).2 }
        arrived := t.arrived ++ []
        handled := t.handled ++ [(i, request)] } i request where
  running := hrunning
  queue := by
    rw [Host.queue_hand]
    exact hqueue
  arrived := List.append_nil _
  handled := rfl
  registry := Directory.registry_respond t.server.state request
  reply p hp hphase := by
    have hp : { t.server.host with queue := rest }.peers[i]? = some p := hp
    show (Host.hand _ i (.reply _)).peers[i]? = _
    rw [Host.hand_reply hp hphase, Host.getElem?_set_self hp]
  others j hj := Host.peers_hand_of_ne _ _ (Ne.symm hj)
  unchanged h := by
    show (respond t.server.state request).2 = t.server.state
    simp only [respond, h]
  changed r h := by
    have hstate : (respond t.server.state request).2
        = { registry := r
            broadcaster := (t.server.state.broadcaster.publish r.snapshot).2
            published := r.snapshot } := by
      simp only [respond, h]
    refine ⟨?_, ?_, ?_⟩
    · show (respond t.server.state request).2.broadcaster.feed = _
      rw [hstate]
      rfl
    · show (respond t.server.state request).2.published = _
      rw [hstate]
    · show (respond t.server.state request).2.broadcaster.statistics = _
      rw [hstate]
      rfl

/-- What a step of the directory comes to. -/
theorem serve_cases (t : Tenure) (a : Action) :
    (∃ i request, Handles t (t.serve a) i request) ∨
      Keeps t (t.serve a) ∧ (t.serve a).server.state = t.server.state := by
  rw [serve]
  cases hstep : Desk.step? respond t.server a with
  | none => exact .inr ⟨.refl t, rfl⟩
  | some server =>
    cases Desk.steps_step? hstep with
    | accept haccept =>
      obtain ⟨p, -, -, rfl⟩ := Host.accept?_eq_some haccept
      exact .inr ⟨keeps_host rfl (List.append_nil _).symm nofun, rfl⟩
    | read hread =>
      obtain ⟨p, -, -, ⟨request, rest, -, rfl⟩ | ⟨result, rest, -, -, rfl⟩⟩ :=
        Host.read?_eq_some hread
      · exact .inr ⟨keeps_host rfl (List.append_nil _).symm nofun, rfl⟩
      · exact .inr ⟨keeps_host rfl (List.append_nil _).symm nofun, rfl⟩
    | @enqueue i _ henqueue =>
      obtain ⟨⟨link, phase⟩, request, hp, rfl, rfl⟩ := Host.enqueue?_eq_some henqueue
      have hqueued : queuedBy t.server (.enqueue i) = [(i, request)] := by simp only [queuedBy, hp]
      rw [hqueued]
      exact .inr ⟨keeps_host rfl rfl nofun, rfl⟩
    | write hwrite =>
      obtain ⟨p, reply, -, -, ⟨-, rfl⟩ | ⟨-, rfl⟩⟩ := Host.write?_eq_some hwrite
      · exact .inr ⟨keeps_host rfl (List.append_nil _).symm nofun, rfl⟩
      · exact .inr ⟨keeps_host rfl (List.append_nil _).symm nofun, rfl⟩
    | @dispatch i request host hlistening htake =>
      obtain ⟨hqueue, hhost⟩ := Host.take?_eq_some htake
      refine .inl ⟨i, request, ?_⟩
      rw [takenBy, hqueue, hhost]
      exact handles_dispatch hlistening hqueue

/-! ## All moves -/

/-- What is not a step of the directory handles nothing. -/
theorem keeps_step {m : Move} (hm : ∀ a, m ≠ .serve a) : Keeps t (t.step m) := by
  have hqueue : ∃ new, t.arrived = t.arrived ++ new ∧
      t.server.host.queue = t.server.host.queue ++ new := ⟨[], by simp⟩
  cases m with
  | serve a => exact absurd rfl (hm a)
  | call => exact ⟨hqueue, rfl, rfl, rfl, rfl, .concat _⟩
  | link i l => exact ⟨hqueue, rfl, rfl, rfl, rfl, .modify i fun _ _ h => h⟩
  | leave i => exact ⟨hqueue, rfl, rfl, rfl, rfl, .modify i nofun⟩
  | look => exact ⟨hqueue, rfl, rfl, rfl, rfl, .refl _⟩
  | feed f => exact ⟨hqueue, rfl, rfl, rfl, rfl, .refl _⟩
  | stop => exact ⟨hqueue, rfl, rfl, rfl, rfl, .refl _⟩
  | close =>
    rw [step]
    split
    · exact .refl t
    · exact ⟨hqueue, rfl, rfl, rfl, rfl, .leave _⟩

/-- A move handles the oldest request in full, or none. -/
theorem step_cases (t : Tenure) (m : Move) :
    (∃ i request, Handles t (t.step m) i request) ∨ Keeps t (t.step m) := by
  cases m with
  | serve a => exact (t.serve_cases a).imp_right And.left
  | _ => exact .inr (keeps_step nofun)

/-- A directory that was told to stop is not told to go on. -/
theorem stopped_step (h : t.server.running = false) (m : Move) :
    (t.step m).server.running = false := by
  cases m with
  | serve a =>
    rw [step, serve]
    cases hstep : Desk.step? respond t.server a with
    | none => exact h
    | some server => exact (Desk.steps_step? hstep).listening_eq.trans h
  | close =>
    rw [step]
    split
    · exact h
    · rfl
  | stop => rfl
  | _ => exact h

/-- After the stop nothing is handled any more. -/
theorem keeps_run (h : t.server.running = false) (ms : List Move) : Keeps t (t.run ms) := by
  induction ms generalizing t with
  | nil => exact .refl t
  | cons m ms ih =>
    rcases t.step_cases m with ⟨i, request, hhandles⟩ | hkeeps
    · rw [hhandles.running] at h
      cases h
    · exact hkeeps.trans (ih (stopped_step h m))

/-! ## What every move keeps -/

/-- What has come is what was handled and, after it, what is in the queue. -/
theorem arrived_step (h : t.arrived = t.handled ++ t.server.host.queue) (m : Move) :
    (t.step m).arrived = (t.step m).handled ++ (t.step m).server.host.queue := by
  rcases t.step_cases m with ⟨i, request, hhandles⟩ | hkeeps
  · rw [hhandles.arrived, hhandles.handled, h, hhandles.queue, List.append_assoc,
      List.singleton_append]
  · obtain ⟨new, harrived, hqueue⟩ := hkeeps.queue
    rw [harrived, hqueue, hkeeps.handled, h, List.append_assoc]

/-- The registry, and what is shown and counted of it. -/
theorem balanced_of_state (hregistry : t.server.state.registry = Registry.fed {} t.requests)
    (hpublished : t.server.state.published = t.server.state.registry.snapshot)
    (hsnapshots : t.statistics.snapshots = t.server.state.registry.generation)
    (hoctets : t.statistics.octets
      = UInt64.ofNat (t.versions.foldl (fun n x => n + (Wire.encodeSnapshot x).length) 0))
    (herrors : t.statistics.encodeErrors = 0) : Balanced t where
  registry := hregistry
  published := hpublished
  size := by rw [hpublished]; rfl
  snapshots := hsnapshots
  octets := hoctets
  encodeErrors := herrors
  generations := by
    rw [versions, Registry.generations_versions]
    exact List.map_congr_left fun k _ => UInt64.zero_add _
  current := by
    rw [hregistry, Registry.snapshot_fed]
    rfl

theorem balanced_new (c : Config.Server) : Balanced (new c) :=
  balanced_of_state rfl rfl rfl rfl rfl

theorem Keeps.balanced {t' : Tenure} (h : Keeps t t') (ht : Balanced t) : Balanced t' := by
  have hrequests : t'.requests = t.requests := by rw [requests, h.handled, requests]
  have hversions : t'.versions = t.versions := by rw [versions, hrequests, versions]
  refine balanced_of_state ?_ ?_ ?_ ?_ ?_
  · rw [h.registry, hrequests]
    exact ht.registry
  · rw [h.published, h.registry]
    exact ht.published
  · rw [h.statistics, h.registry]
    exact ht.snapshots
  · rw [h.statistics, hversions]
    exact ht.octets
  · rw [h.statistics]
    exact ht.encodeErrors

theorem Handles.balanced {t' : Tenure} {i : Nat} {request : List UInt8}
    (h : Handles t t' i request) (ht : Balanced t) : Balanced t' := by
  have hrequests : t'.requests = t.requests ++ [request] := by
    rw [requests, h.handled, List.map_append]
    rfl
  have hregistry : t'.server.state.registry = Registry.fed {} t'.requests := by
    rw [h.registry, hrequests, Registry.fed_concat, ht.registry]
  have hversions : t'.versions = t.versions
      ++ ((dispatch t.server.state.registry request).changed.map Registry.snapshot).toList := by
    rw [versions, hrequests, Registry.versions_concat, ← ht.registry, versions]
  rcases Directory.dispatch_registry t.server.state.registry request with
    ⟨hchanged, -⟩ | ⟨r, hchanged, hr, hgeneration⟩
  · have hstate := h.unchanged hchanged
    have hstatistics : t'.statistics = t.statistics := by rw [statistics, hstate, statistics]
    rw [hchanged, Option.map_none, Option.toList_none, List.append_nil] at hversions
    refine balanced_of_state hregistry ?_ ?_ ?_ ?_
    · rw [hstate]
      exact ht.published
    · rw [hstatistics, hstate]
      exact ht.snapshots
    · rw [hstatistics, hversions]
      exact ht.octets
    · rw [hstatistics]
      exact ht.encodeErrors
  · obtain ⟨-, hpublished, hstatistics⟩ := h.changed r hchanged
    have hcurrent : t'.server.state.registry = r := h.registry.trans hr
    rw [hchanged, Option.map_some, Option.toList_some] at hversions
    refine balanced_of_state hregistry ?_ ?_ ?_ ?_
    · rw [hpublished, hcurrent]
    · rw [hstatistics, hcurrent, hgeneration, ← ht.snapshots]
    · rw [hstatistics, hversions, List.foldl_append, List.foldl_cons, List.foldl_nil,
        UInt64.ofNat_add, ← ht.octets]
    · rw [hstatistics]
      exact ht.encodeErrors

theorem Balanced.step (h : Balanced t) (m : Move) : Balanced (t.step m) := by
  rcases t.step_cases m with ⟨i, request, hhandles⟩ | hkeeps
  · exact hhandles.balanced h
  · exact hkeeps.balanced h

theorem Balanced.run (h : Balanced t) (ms : List Move) : Balanced (t.run ms) := by
  induction ms generalizing t with
  | nil => exact h
  | cons m ms ih => exact ih (h.step m)

theorem arrived_run (h : t.arrived = t.handled ++ t.server.host.queue) (ms : List Move) :
    (t.run ms).arrived = (t.run ms).handled ++ (t.run ms).server.host.queue := by
  induction ms generalizing t with
  | nil => exact h
  | cons m ms ih => exact ih (arrived_step h m)

/-- **The books follow the registry.**  After any moves of a directory that has just been started:

* the registry is that of one run of the requests that were handled; the snapshot that can be seen
  is the current one, as many snapshots are counted as its generation says, none that could not be
  encoded, and as many octets as the snapshots of the generations from 1 on have together;
* the requests that have come are those that were handled and, after them, those in the queue;
* each move handles the oldest request in full or leaves all of this as it is, and a step that
  handles none broadcasts nothing;
* after a stop no request is handled any more. -/
theorem balanced_run (c : Config.Server) (ms : List Move) :
    let t := (new c).run ms
    Balanced t ∧
    t.arrived = t.handled ++ t.server.host.queue ∧
    (∀ m, (∃ i request, Handles t (t.step m) i request) ∨ Keeps t (t.step m)) ∧
    (∀ a, (∃ i request, Handles t (t.step (.serve a)) i request) ∨
      (t.step (.serve a)).server.feed = t.server.feed) ∧
    ∀ more, Keeps t ((t.step .stop).run more) := by
  intro t
  refine ⟨(balanced_new c).run ms, arrived_run rfl ms, t.step_cases, fun a => ?_, fun more => ?_⟩
  · rcases t.serve_cases a with hhandles | ⟨-, hstate⟩
    · exact .inl hhandles
    · refine .inr ?_
      show (t.serve a).server.state.broadcaster.feed = t.server.state.broadcaster.feed
      rw [hstate]
  · have hstop : Keeps t (t.step .stop) := keeps_step nofun
    exact hstop.trans (keeps_run rfl more)

/-- The frames of some requests on their way to the directory. -/
def bringing (requests : List (List UInt8)) (closed : Bool) : Link :=
  { toHost := ⟨requests.flatMap Frame.encode, closed⟩ }

/-- Two peers register under one address; the second one leaves before it has its reply, and what
the first one asks next is still in the queue at the stop. -/
def sampleMoves : List Move :=
  let register := (Wire.Command.register ⟨none, "tcp://h:1", "p", ["t"]⟩).encode
  [.call, .call, .serve (.accept 0), .serve (.accept 1),
    .link 0 (bringing [register, (Wire.Command.deregister 0).encode] false),
    .link 1 (bringing [register] true), .serve (.read 0), .serve (.read 1), .serve (.enqueue 0),
    .serve (.enqueue 1), .serve .dispatch, .leave 1, .serve .dispatch, .serve (.write 0),
    .serve (.read 0), .serve (.enqueue 0)]

theorem balanced_run_sampleMoves :
    let t := (new {}).run sampleMoves
    t.arrived.map Prod.fst = [0, 1, 0] ∧ t.handled.map Prod.fst = [0, 1] ∧
      t.server.state.registry.size = 1 ∧ t.statistics.snapshots = 1 ∧ Balanced t ∧
      Keeps t ((t.step .stop).run [.serve .dispatch]) := by
  intro t
  obtain ⟨hbalanced, -, -, -, hstopped⟩ := balanced_run {} sampleMoves
  exact ⟨by decide +kernel, by decide +kernel, by decide +kernel, by decide +kernel, hbalanced,
    hstopped [.serve .dispatch]⟩

/-! ## The running directory -/

/-- Whether moves lead from one state of a directory to another. -/
def Leads (s s' : Server) : Prop :=
  ∀ t : Tenure, t.server = s → ∃ ms, (t.run ms).server = s'

namespace Leads

variable {s s' s'' : Server}

theorem refl (s : Server) : Leads s s := fun _ h => ⟨[], h⟩

theorem trans (h : Leads s s') (h' : Leads s' s'') : Leads s s'' := by
  intro t ht
  obtain ⟨ms, hms⟩ := h t ht
  obtain ⟨ms', hms'⟩ := h' (t.run ms) hms
  refine ⟨ms ++ ms', ?_⟩
  rw [run, List.foldl_append]
  exact hms'

theorem of_step (m : Move) (h : ∀ t : Tenure, t.server = s → (t.step m).server = s') :
    Leads s s' := fun t ht => ⟨[m], h t ht⟩

theorem withFeed (s : Server) (f : Feed) : Leads s (s.withFeed f) :=
  .of_step (.feed f) fun t ht => by rw [← ht]; rfl

theorem serve {a : Action} (h : Desk.step? respond s a = some s') : Leads s s' :=
  .of_step (.serve a) fun t ht => by rw [step, Tenure.serve, ht, h]

theorem run : ∀ (fuel : Nat) (s : Server), Leads s (Server.run fuel s)
  | 0, s => .refl s
  | fuel + 1, s => by
    rw [Server.run]
    cases hnext : Desk.next? respond (s.withFeed s.feed.work) with
    | none => exact .withFeed s _
    | some s' =>
      obtain ⟨a, -, hstep⟩ := List.exists_of_findSome?_eq_some hnext
      exact (Leads.withFeed s _).trans ((Leads.serve hstep).trans (run fuel s'))

/-- Those whose call has been heard are taken in one after the other. -/
theorem takeIn (s : Server) : Leads s { s with host := s.host.takeIn } := by
  have hfold : ∀ (heard : List Nat) (s : Server),
      Leads s { s with host := heard.foldl (fun h i => (h.accept? i).getD h) s.host } := by
    intro heard
    induction heard with
    | nil => exact fun s => .refl s
    | cons i heard ih =>
      intro s
      refine Leads.trans ?_ (ih { s with host := (s.host.accept? i).getD s.host })
      cases haccept : s.host.accept? i with
      | none => exact .refl s
      | some h =>
        have hstep : Desk.step? respond s (.accept i) = some { s with host := h } := by
          rw [Desk.step?, haccept, Option.map_some]
        exact .serve hstep
  exact hfold s.host.heard s

theorem close (h : s.host.listening = false) : Leads s { s with host := s.host.close } :=
  .of_step .close fun t ht => by rw [step, ht, if_neg (by rw [h]; decide)]

theorem turn (s : Server) : Leads s s.turn := by
  rw [Server.turn]
  refine (Leads.run (s.host.workload + 1) s).trans ?_
  generalize Server.run (s.host.workload + 1) s = s
  refine Leads.trans ?_ (.withFeed _ _)
  cases hlistening : s.host.listening with
  | true => exact .takeIn s
  | false => exact .close hlistening

theorem look (s : Server) : Leads s s.look := by
  refine Leads.trans ?_ (.withFeed _ _)
  exact .of_step .look fun t ht => by rw [step, ht]; rfl

end Leads

/-- **The directory runs by these moves.**  Whatever a directory does in taking in everybody and
dealing with all that has come, and in being told to stop, is done by moves. -/
theorem leads_settle (s : Server) : Leads s s.settle ∧ Leads s s.stop :=
  ⟨(Leads.look s).trans ((Leads.turn _).trans ((Leads.look _).trans (.turn _))),
    .of_step .stop fun t ht => by rw [step, ht]⟩

end Tenure

end TopicDirectory
