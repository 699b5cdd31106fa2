import TopicDirectory.Exchange.Host
import TopicDirectory.Proofs.Basic

/-!
# What a step of a host does

Each step on a connection concerns one peer of the host, and at most adds a request of that peer to
the queue (`Host.Serves`).  What else a step can come to is said once for all who take steps
(`Desk.Steps`).
-/

namespace TopicDirectory.Exchange.Host

/-- Whether a host differs from another at most in one peer and in requests of that peer at the end
of the queue. -/
def Serves (h : Host) (i : Nat) (h' : Host) : Prop :=
  ∃ p new, i < h.peers.length ∧ (∀ e ∈ new, e.1 = i) ∧
    h' = { h.set i p with queue := h.queue ++ new }

theorem serves_set {h : Host} {i : Nat} {p : Peer} (hp : h.peers[i]? = some p) (q : Peer) :
    h.Serves i (h.set i q) := by
  obtain ⟨hi, -⟩ := List.getElem?_eq_some_iff.1 hp
  exact ⟨q, [], hi, nofun, by rw [List.append_nil]; rfl⟩

theorem Serves.limit {h h' : Host} {i : Nat} (hs : h.Serves i h') : h'.limit = h.limit := by
  obtain ⟨p, new, -, -, rfl⟩ := hs
  rfl

theorem Serves.listening {h h' : Host} {i : Nat} (hs : h.Serves i h') :
    h'.listening = h.listening := by
  obtain ⟨p, new, -, -, rfl⟩ := hs
  rfl

theorem Serves.length_peers {h h' : Host} {i : Nat} (hs : h.Serves i h') :
    h'.peers.length = h.peers.length := by
  obtain ⟨p, new, -, -, rfl⟩ := hs
  exact List.length_set

theorem Serves.peers_of_ne {h h' : Host} {i j : Nat} (hs : h.Serves i h') (hij : i ≠ j) :
    h'.peers[j]? = h.peers[j]? := by
  obtain ⟨p, new, -, -, rfl⟩ := hs
  exact List.getElem?_set_ne hij

theorem Serves.lt_of_mem_queue {h h' : Host} {i : Nat} (hs : h.Serves i h') {e : Nat × List UInt8}
    (he : e ∈ h'.queue) (hqueue : ∀ e ∈ h.queue, e.1 < h.peers.length) : e.1 < h.peers.length := by
  obtain ⟨p, new, hi, hnew, rfl⟩ := hs
  rcases List.mem_append.1 he with he | he
  · exact hqueue e he
  · rw [hnew e he]
    exact hi

@[simp] theorem getElem?_set_self {h : Host} {i : Nat} {p q : Peer} (hp : h.peers[i]? = some p) :
    (h.set i q).peers[i]? = some q := by
  obtain ⟨hi, -⟩ := List.getElem?_eq_some_iff.1 hp
  exact List.getElem?_set_self hi

/-! ## The steps -/

theorem accept?_eq_some {h h' : Host} {i : Nat} (hstep : h.accept? i = some h') :
    ∃ p, h.peers[i]? = some p ∧ p.phase = .calling ∧ h' = h.set i { p with phase := .reading } := by
  cases hp : h.peers[i]? with
  | none =>
    rw [accept?, hp] at hstep
    cases hstep
  | some p =>
    rw [accept?, hp] at hstep
    obtain ⟨⟨-, hphase⟩, heq⟩ := guard_bind_eq_some.1 hstep
    exact ⟨p, rfl, hphase, (Option.some.inj heq).symm⟩

theorem read?_eq_some {h h' : Host} {i : Nat} (hstep : h.read? i = some h') :
    ∃ p, h.peers[i]? = some p ∧ p.phase = .reading ∧
      ((∃ request rest, Frame.read h.limit p.link.toHost = some (.ok (some request), rest) ∧
          h' = h.set i ⟨{ p.link with toHost := rest }, .holding request⟩) ∨
        ∃ result rest, Frame.read h.limit p.link.toHost = some (result, rest) ∧
          (∀ request, result ≠ .ok (some request)) ∧
          h' = h.set i (Peer.leave { p with link.toHost := rest })) := by
  cases hp : h.peers[i]? with
  | none =>
    rw [read?, hp] at hstep
    cases hstep
  | some p =>
    rw [read?, hp] at hstep
    obtain ⟨hphase, hstep⟩ := guard_bind_eq_some.1 hstep
    refine ⟨p, rfl, hphase, ?_⟩
    cases hread : Frame.read h.limit p.link.toHost with
    | none => simp [hread] at hstep
    | some found =>
      obtain ⟨result, rest⟩ := found
      simp only [hread, Option.bind_eq_bind, Option.bind_some, Option.pure_def] at hstep
      split at hstep
      · rename_i heq
        cases heq
        exact .inl ⟨_, _, rfl, (Option.some.inj hstep).symm⟩
      · rename_i hresult heq
        cases heq
        exact .inr ⟨result, rest, rfl, hresult,
          (Option.some.inj hstep).symm⟩

theorem enqueue?_eq_some {h h' : Host} {i : Nat} (hstep : h.enqueue? i = some h') :
    ∃ p request, h.peers[i]? = some p ∧ p.phase = .holding request ∧
      h' = { h.set i { p with phase := .waiting } with queue := h.queue ++ [(i, request)] } := by
  cases hp : h.peers[i]? with
  | none =>
    rw [enqueue?, hp] at hstep
    cases hstep
  | some p =>
    obtain ⟨link, phase⟩ := p
    rw [enqueue?, hp] at hstep
    cases phase with
    | holding request =>
      obtain ⟨-, heq⟩ := guard_bind_eq_some.1 hstep
      exact ⟨_, request, rfl, rfl, (Option.some.inj heq).symm⟩
    | _ => cases hstep

theorem write?_eq_some {h h' : Host} {i : Nat} (hstep : h.write? i = some h') :
    ∃ p reply, h.peers[i]? = some p ∧ p.phase = .answering reply ∧
      (reply.length ≤ h.limit ∧
          h' = h.set i
            ⟨{ p.link with toGuest := p.link.toGuest.write (Frame.encode reply) }, .reading⟩ ∨
        h.limit < reply.length ∧ h' = h.set i p.leave) := by
  cases hp : h.peers[i]? with
  | none => simp [write?, hp] at hstep
  | some p =>
    cases hphase : p.phase with
    | answering reply =>
      refine ⟨p, reply, rfl, hphase, ?_⟩
      by_cases hlimit : reply.length ≤ h.limit
      · simp [write?, hp, hphase, Frame.write_of_le hlimit] at hstep
        exact .inl ⟨hlimit, hstep.symm⟩
      · have hwrite : Frame.write h.limit reply = .error (.frameTooLarge reply.length h.limit) :=
          if_pos (Nat.lt_of_not_le hlimit)
        simp [write?, hp, hphase, hwrite] at hstep
        exact .inr ⟨Nat.lt_of_not_le hlimit, hstep.symm⟩
    | _ => simp [write?, hp, hphase] at hstep

theorem take?_eq_some {h h' : Host} {i : Nat} {request : List UInt8}
    (htake : h.take? = some ((i, request), h')) :
    h.queue = (i, request) :: h'.queue ∧ h' = { h with queue := h'.queue } := by
  rw [take?] at htake
  split at htake
  · cases htake
  · rename_i heq
    cases htake
    exact ⟨heq, rfl⟩

theorem serves_accept? {h h' : Host} {i : Nat} (hstep : h.accept? i = some h') : h.Serves i h' := by
  obtain ⟨p, hp, -, rfl⟩ := accept?_eq_some hstep
  exact serves_set hp _

theorem serves_read? {h h' : Host} {i : Nat} (hstep : h.read? i = some h') : h.Serves i h' := by
  obtain ⟨p, hp, -, ⟨request, rest, -, rfl⟩ | ⟨result, rest, -, -, rfl⟩⟩ := read?_eq_some hstep
  · exact serves_set hp _
  · exact serves_set hp _

theorem serves_enqueue? {h h' : Host} {i : Nat} (hstep : h.enqueue? i = some h') :
    h.Serves i h' := by
  obtain ⟨p, request, hp, -, rfl⟩ := enqueue?_eq_some hstep
  obtain ⟨hi, -⟩ := List.getElem?_eq_some_iff.1 hp
  refine ⟨_, [(i, request)], hi, ?_, rfl⟩
  intro e he
  rw [List.mem_singleton.1 he]

theorem serves_write? {h h' : Host} {i : Nat} (hstep : h.write? i = some h') : h.Serves i h' := by
  obtain ⟨p, reply, hp, -, ⟨-, rfl⟩ | ⟨-, rfl⟩⟩ := write?_eq_some hstep
  · exact serves_set hp _
  · exact serves_set hp _

/-! ## When a step can be taken -/

theorem isSome_accept? {h : Host} {i : Nat} {p : Peer} (hp : h.peers[i]? = some p)
    (hphase : p.phase = .calling) (hlistening : h.listening = true) : (h.accept? i).isSome := by
  have hstep : h.accept? i = some (h.set i { p with phase := .reading }) := by
    rw [accept?, hp]
    exact guard_bind_eq_some.2 ⟨⟨hlistening, hphase⟩, rfl⟩
  rw [hstep]
  rfl

theorem isSome_read? {h : Host} {i : Nat} {p : Peer} (hp : h.peers[i]? = some p)
    (hphase : p.phase = .reading) {result : Except Link.Fault (Option (List UInt8))} {rest : Pipe}
    (hread : Frame.read h.limit p.link.toHost = some (result, rest)) : (h.read? i).isSome := by
  have hstep : ∃ q, h.read? i = some (h.set i q) := by
    rw [read?, hp]
    rcases result with fault | _ | request
    · exact ⟨_, guard_bind_eq_some.2 ⟨hphase, by rw [hread]; rfl⟩⟩
    · exact ⟨_, guard_bind_eq_some.2 ⟨hphase, by rw [hread]; rfl⟩⟩
    · exact ⟨_, guard_bind_eq_some.2 ⟨hphase, by rw [hread]; rfl⟩⟩
  obtain ⟨q, hq⟩ := hstep
  rw [hq]
  rfl

theorem isSome_enqueue? {h : Host} {i : Nat} {p : Peer} {request : List UInt8}
    (hp : h.peers[i]? = some p) (hphase : p.phase = .holding request)
    (hroom : h.queue.length < depth) : (h.enqueue? i).isSome := by
  have hstep : h.enqueue? i
      = some { h.set i { p with phase := .waiting } with queue := h.queue ++ [(i, request)] } := by
    obtain ⟨link, phase⟩ := p
    obtain rfl : phase = .holding request := hphase
    rw [enqueue?, hp]
    exact guard_bind_eq_some.2 ⟨hroom, rfl⟩
  rw [hstep]
  rfl

theorem isSome_write? {h : Host} {i : Nat} {p : Peer} {reply : List UInt8}
    (hp : h.peers[i]? = some p) (hphase : p.phase = .answering reply) : (h.write? i).isSome := by
  obtain ⟨link, phase⟩ := p
  obtain rfl : phase = .answering reply := hphase
  simp only [write?, hp, Option.bind_eq_bind, Option.bind_some]
  split <;> rfl

/-! ## Handing answers over -/

@[simp] theorem queue_hand (h : Host) (i : Nat) (a : Answer) : (h.hand i a).queue = h.queue := by
  unfold hand
  split
  · split
    · split <;> rfl
    · rfl
  · rfl

@[simp] theorem limit_hand (h : Host) (i : Nat) (a : Answer) : (h.hand i a).limit = h.limit := by
  unfold hand
  split
  · split
    · split <;> rfl
    · rfl
  · rfl

@[simp] theorem listening_hand (h : Host) (i : Nat) (a : Answer) :
    (h.hand i a).listening = h.listening := by
  unfold hand
  split
  · split
    · split <;> rfl
    · rfl
  · rfl

@[simp] theorem length_peers_hand (h : Host) (i : Nat) (a : Answer) :
    (h.hand i a).peers.length = h.peers.length := by
  unfold hand
  split
  · split
    · split <;> simp [set]
    · rfl
  · rfl

theorem peers_hand_of_ne (h : Host) {i j : Nat} (a : Answer) (hij : i ≠ j) :
    (h.hand i a).peers[j]? = h.peers[j]? := by
  unfold hand
  split
  · split
    · split <;> simp [set, List.getElem?_set_ne hij]
    · rfl
  · rfl

theorem hand_reply {h : Host} {i : Nat} {p : Peer} (hp : h.peers[i]? = some p)
    (hphase : p.phase = .waiting) (reply : List UInt8) :
    h.hand i (.reply reply) = h.set i { p with phase := .answering reply } := by
  simp only [hand, hp, hphase, if_pos]

end TopicDirectory.Exchange.Host

namespace TopicDirectory.Exchange.Desk

variable {σ : Type} {respond : σ → List UInt8 → Answer × σ} {d d' : Desk σ} {a : Action}

/-- What a step can come to. -/
inductive Steps (respond : σ → List UInt8 → Answer × σ) (d : Desk σ) : Action → Desk σ → Prop
  | accept {i : Nat} {h : Host} (hstep : d.host.accept? i = some h) :
    Steps respond d (.accept i) { d with host := h }
  | read {i : Nat} {h : Host} (hstep : d.host.read? i = some h) :
    Steps respond d (.read i) { d with host := h }
  | enqueue {i : Nat} {h : Host} (hstep : d.host.enqueue? i = some h) :
    Steps respond d (.enqueue i) { d with host := h }
  | write {i : Nat} {h : Host} (hstep : d.host.write? i = some h) :
    Steps respond d (.write i) { d with host := h }
  | dispatch {i : Nat} {request : List UInt8} {h : Host} (hlistening : d.host.listening = true)
    (htake : d.host.take? = some ((i, request), h)) :
    Steps respond d .dispatch
      ⟨h.hand i (respond d.state request).1, (respond d.state request).2⟩

theorem steps_step? (hstep : d.step? respond a = some d') : Steps respond d a d' := by
  cases a with
  | accept i =>
    obtain ⟨h, hhost, rfl⟩ := Option.map_eq_some_iff.1 hstep
    exact .accept hhost
  | read i =>
    obtain ⟨h, hhost, rfl⟩ := Option.map_eq_some_iff.1 hstep
    exact .read hhost
  | enqueue i =>
    obtain ⟨h, hhost, rfl⟩ := Option.map_eq_some_iff.1 hstep
    exact .enqueue hhost
  | write i =>
    obtain ⟨h, hhost, rfl⟩ := Option.map_eq_some_iff.1 hstep
    exact .write hhost
  | dispatch =>
    rw [step?] at hstep
    split at hstep
    · rename_i hlistening
      obtain ⟨⟨⟨i, request⟩, h⟩, htake, rfl⟩ := Option.map_eq_some_iff.1 hstep
      exact .dispatch hlistening htake
    · cases hstep

/-- No step is the stop of a host, or the end of one. -/
theorem Steps.listening_eq (h : Steps respond d a d') : d'.host.listening = d.host.listening := by
  cases h with
  | accept hstep => exact (Host.serves_accept? hstep).listening
  | read hstep => exact (Host.serves_read? hstep).listening
  | enqueue hstep => exact (Host.serves_enqueue? hstep).listening
  | write hstep => exact (Host.serves_write? hstep).listening
  | dispatch hlistening htake =>
    obtain ⟨-, hhost⟩ := Host.take?_eq_some htake
    rw [Host.listening_hand, hhost]

end TopicDirectory.Exchange.Desk
