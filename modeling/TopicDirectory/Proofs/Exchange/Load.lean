import TopicDirectory.Proofs.Exchange.Host
import TopicDirectory.Proofs.Link.Reading

/-!
# A host comes to rest

What a host has before it is a number that becomes smaller with every step it takes
(`Desk.load_step?`), whatever its requests are answered.  So as long as nothing comes from outside it
takes no more steps than it has room for in a turn (`Desk.length_le_workload`), and then it can take
none (`Desk.Quiet`).
-/

namespace TopicDirectory.Exchange

/-! ## What a host has before it -/

/-- What is to be done for a peer in a phase, with so many octets still to be read: nothing if the
host has left it. -/
def Phase.load (unread : Nat) : Phase → Nat
  | calling => unread + 2
  | reading => unread + 1
  -- it may be more than before the reading, since no frame has less than four octets
  | holding _ => unread + 4
  | waiting => unread + 2
  | answering _ => unread + 2
  | gone => 0

/-- What is to be done for a peer. -/
def Peer.load (p : Peer) : Nat := p.phase.load p.link.toHost.unread.length

/-- What is to be done for some peers. -/
def loads : List Peer → Nat
  | [] => 0
  | p :: ps => p.load + loads ps

/-- What a host has before it. -/
def Host.load (h : Host) : Nat := loads h.peers + h.queue.length

theorem Peer.load_of_phase {p : Peer} {phase : Phase} (h : p.phase = phase) :
    p.load = phase.load p.link.toHost.unread.length := by
  rw [load, h]

/-- One of the peers is replaced. -/
theorem loads_set {ps : List Peer} {i : Nat} {p : Peer} (hp : ps[i]? = some p) (q : Peer) :
    loads (ps.set i q) + p.load = loads ps + q.load := by
  induction ps generalizing i with
  | nil => cases hp
  | cons first ps ih =>
    cases i with
    | zero =>
      obtain rfl : first = p := Option.some.inj hp
      rw [List.set_cons_zero, loads, loads]
      omega
    | succ i =>
      have hrest := ih (i := i) hp
      rw [List.set_cons_succ, loads, loads]
      omega

namespace Host

theorem load_set {h : Host} {i : Nat} {p : Peer} (hp : h.peers[i]? = some p) (q : Peer) :
    (h.set i q).load + p.load = h.load + q.load := by
  have hloads := loads_set hp q
  show loads (h.peers.set i q) + h.queue.length + p.load = _
  rw [load]
  omega

/-! ## The steps -/

theorem load_accept? {h h' : Host} {i : Nat} (hstep : h.accept? i = some h') : h'.load < h.load := by
  obtain ⟨p, hp, hphase, rfl⟩ := accept?_eq_some hstep
  have hset := load_set hp { p with phase := .reading }
  have hbefore : p.load = p.link.toHost.unread.length + 2 := Peer.load_of_phase hphase
  have hafter : Peer.load { p with phase := .reading } = p.link.toHost.unread.length + 1 := rfl
  omega

theorem load_read? {h h' : Host} {i : Nat} (hstep : h.read? i = some h') : h'.load < h.load := by
  obtain ⟨p, hp, hphase, hcases⟩ := read?_eq_some hstep
  have hbefore : p.load = p.link.toHost.unread.length + 1 := Peer.load_of_phase hphase
  rcases hcases with ⟨request, rest, hread, rfl⟩ | ⟨-, rest, -, -, rfl⟩
  · have hset := load_set hp ⟨{ p.link with toHost := rest }, .holding request⟩
    have hafter : Peer.load ⟨{ p.link with toHost := rest }, .holding request⟩
        = rest.unread.length + 4 := rfl
    -- a frame has four octets and a body
    have hunread := congrArg List.length (Frame.read_eq_ok hread).1
    rw [List.length_append, Frame.length_encode] at hunread
    omega
  · have hset := load_set hp (Peer.leave { p with link.toHost := rest })
    have hafter : Peer.load (Peer.leave { p with link.toHost := rest }) = 0 := rfl
    omega

theorem load_enqueue? {h h' : Host} {i : Nat} (hstep : h.enqueue? i = some h') :
    h'.load < h.load := by
  obtain ⟨p, request, hp, hphase, rfl⟩ := enqueue?_eq_some hstep
  have hset := load_set hp { p with phase := .waiting }
  have hbefore : p.load = p.link.toHost.unread.length + 4 := Peer.load_of_phase hphase
  have hafter : Peer.load { p with phase := .waiting } = p.link.toHost.unread.length + 2 := rfl
  have hqueue : load { h.set i { p with phase := .waiting } with queue := h.queue ++ [(i, request)] }
      = (h.set i { p with phase := .waiting }).load + 1 := by
    rw [load, load, List.length_append, ← Nat.add_assoc]
    rfl
  omega

theorem load_write? {h h' : Host} {i : Nat} (hstep : h.write? i = some h') : h'.load < h.load := by
  obtain ⟨p, reply, hp, hphase, hcases⟩ := write?_eq_some hstep
  have hbefore : p.load = p.link.toHost.unread.length + 2 := Peer.load_of_phase hphase
  rcases hcases with ⟨-, rfl⟩ | ⟨-, rfl⟩
  · have hset := load_set hp
      ⟨{ p.link with toGuest := p.link.toGuest.write (Frame.encode reply) }, .reading⟩
    have hafter : Peer.load
        ⟨{ p.link with toGuest := p.link.toGuest.write (Frame.encode reply) }, .reading⟩
          = p.link.toHost.unread.length + 1 := rfl
    omega
  · have hset := load_set hp p.leave
    have hafter : p.leave.load = 0 := rfl
    omega

theorem load_hand_le (h : Host) (i : Nat) (a : Answer) : (h.hand i a).load ≤ h.load := by
  rw [hand]
  split
  · rename_i p hp
    split
    · rename_i hphase
      have hbefore : p.load = p.link.toHost.unread.length + 2 := Peer.load_of_phase hphase
      split
      · rename_i octets
        have hset := load_set hp { p with phase := .answering octets }
        have hafter : Peer.load { p with phase := .answering octets }
            = p.link.toHost.unread.length + 2 := rfl
        omega
      · have hset := load_set hp p.leave
        have hafter : p.leave.load = 0 := rfl
        omega
      · exact Nat.le_refl _
    · exact Nat.le_refl _
  · exact Nat.le_refl _

theorem load_take? {h h' : Host} {e : Nat × List UInt8} (htake : h.take? = some (e, h')) :
    h'.load + 1 = h.load := by
  rw [take?] at htake
  split at htake
  · cases htake
  · rename_i hqueue
    cases htake
    rw [load, load, hqueue]
    rfl

theorem load_le_workload (h : Host) : h.load ≤ h.workload := by
  have hloads (ps : List Peer) (n : Nat) :
      loads ps + n ≤ ps.foldl (fun n p => n + p.link.toHost.unread.length + 8) n := by
    induction ps generalizing n with
    | nil => exact Nat.le_of_eq (Nat.zero_add n)
    | cons p ps ih =>
      have hrest := ih (n + p.link.toHost.unread.length + 8)
      have hpeer : p.load ≤ p.link.toHost.unread.length + 8 := by
        rw [Peer.load]
        cases p.phase <;> simp [Phase.load]
      rw [loads, List.foldl_cons]
      omega
  have hpeers := hloads h.peers (h.queue.length + 1)
  rw [workload, load]
  omega

end Host

/-! ## Many steps -/

namespace Desk

variable {σ : Type} {respond : σ → List UInt8 → Answer × σ}

theorem load_step? {d d' : Desk σ} {a : Action} (h : d.step? respond a = some d') :
    d'.host.load < d.host.load := by
  cases steps_step? h with
  | accept hstep => exact Host.load_accept? hstep
  | read hstep => exact Host.load_read? hstep
  | enqueue hstep => exact Host.load_enqueue? hstep
  | write hstep => exact Host.load_write? hstep
  | @dispatch i request host hlistening htake =>
    have hhand := host.load_hand_le i (respond d.state request).1
    have hload := Host.load_take? htake
    show (host.hand i (respond d.state request).1).load < _
    omega

/-- Takes steps one after the other, if they can be taken. -/
def steps? (respond : σ → List UInt8 → Answer × σ) (d : Desk σ) : List Action → Option (Desk σ)
  | [] => some d
  | a :: as => (d.step? respond a).bind fun d => steps? respond d as

/-- Each step makes what is to be done less. -/
theorem load_steps? {d d' : Desk σ} {as : List Action} (h : d.steps? respond as = some d') :
    as.length + d'.host.load ≤ d.host.load := by
  induction as generalizing d with
  | nil =>
    cases h
    exact Nat.le_of_eq (Nat.zero_add _)
  | cons a as ih =>
    obtain ⟨next, hstep, hrest⟩ := Option.bind_eq_some_iff.1 h
    have hload := load_step? hstep
    have hle := ih hrest
    rw [List.length_cons]
    omega

/-- As long as nothing comes from outside a host takes only so many steps. -/
theorem length_le_workload {d d' : Desk σ} {as : List Action} (h : d.steps? respond as = some d') :
    as.length ≤ d.host.workload := by
  have hload := load_steps? h
  have hworkload := d.host.load_le_workload
  omega

/-- Whether no step can be taken. -/
def Quiet (respond : σ → List UInt8 → Answer × σ) (d : Desk σ) : Prop :=
  ∀ a, d.step? respond a = none

/-- The steps that are about a peer that there is. -/
def choices (d : Desk σ) : List Action :=
  .dispatch :: (List.range d.host.peers.length).flatMap fun i =>
    [.accept i, .read i, .enqueue i, .write i]

theorem quiet_iff {d : Desk σ} : d.Quiet respond ↔ ∀ a ∈ d.choices, (d.step? respond a).isNone := by
  constructor
  · intro h a _
    rw [h a]
    rfl
  · intro h a
    have hnobody (i : Nat) (hi : d.host.peers.length ≤ i) : d.host.peers[i]? = none :=
      List.getElem?_eq_none hi
    have hmem (i : Nat) (hi : i < d.host.peers.length) (a : Action)
        (ha : a ∈ [Action.accept i, .read i, .enqueue i, .write i]) : d.step? respond a = none :=
      Option.isNone_iff_eq_none.1 (h a (List.mem_cons_of_mem _
        (List.mem_flatMap.2 ⟨i, List.mem_range.2 hi, ha⟩)))
    cases a with
    | dispatch => exact Option.isNone_iff_eq_none.1 (h _ List.mem_cons_self)
    | accept i =>
      rcases Nat.lt_or_ge i d.host.peers.length with hi | hi
      · exact hmem i hi _ (by simp)
      · rw [step?, Host.accept?, hnobody i hi]
        rfl
    | read i =>
      rcases Nat.lt_or_ge i d.host.peers.length with hi | hi
      · exact hmem i hi _ (by simp)
      · rw [step?, Host.read?, hnobody i hi]
        rfl
    | enqueue i =>
      rcases Nat.lt_or_ge i d.host.peers.length with hi | hi
      · exact hmem i hi _ (by simp)
      · rw [step?, Host.enqueue?, hnobody i hi]
        rfl
    | write i =>
      rcases Nat.lt_or_ge i d.host.peers.length with hi | hi
      · exact hmem i hi _ (by simp)
      · rw [step?, Host.write?, hnobody i hi]
        rfl

instance (d : Desk σ) : Decidable (d.Quiet respond) := decidable_of_iff _ quiet_iff.symm

/-- A host at rest that has not been told to stop has no request in its queue, and whom it attends
to it waits for. -/
theorem Quiet.resting {d : Desk σ} (h : d.Quiet respond) (hlistening : d.host.listening = true) :
    d.host.queue = [] ∧ ∀ (i : Nat) (p : Peer), d.host.peers[i]? = some p →
      p.phase = .gone ∨ p.phase = .waiting ∨
        p.phase = .reading ∧ Frame.read d.host.limit p.link.toHost = none := by
  have hqueue : d.host.queue = [] := by
    have hdispatch := h .dispatch
    rw [step?, if_pos hlistening, Option.map_eq_none_iff, Host.take?] at hdispatch
    split at hdispatch
    · assumption
    · cases hdispatch
  refine ⟨hqueue, fun i p hp => ?_⟩
  cases hphase : p.phase with
  | calling =>
    have hstep := Host.isSome_accept? hp hphase hlistening
    rw [Option.map_eq_none_iff.1 (h (.accept i))] at hstep
    cases hstep
  | reading =>
    cases hread : Frame.read d.host.limit p.link.toHost with
    | none => exact .inr (.inr ⟨rfl, rfl⟩)
    | some found =>
      have hstep := Host.isSome_read? hp hphase hread
      rw [Option.map_eq_none_iff.1 (h (.read i))] at hstep
      cases hstep
  | holding request =>
    have hroom : d.host.queue.length < Host.depth := by
      rw [hqueue]
      decide
    have hstep := Host.isSome_enqueue? hp hphase hroom
    rw [Option.map_eq_none_iff.1 (h (.enqueue i))] at hstep
    cases hstep
  | waiting => exact .inr (.inl rfl)
  | answering reply =>
    have hstep := Host.isSome_write? hp hphase
    rw [Option.map_eq_none_iff.1 (h (.write i))] at hstep
    cases hstep
  | gone => exact .inl rfl

end Desk

end TopicDirectory.Exchange
