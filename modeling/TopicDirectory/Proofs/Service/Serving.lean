import TopicDirectory.Proofs.Feed.Steps
import TopicDirectory.Proofs.Service.Invariant

/-!
# What the directory does keeps what every move keeps

The steps of the host, of its loop and of the feed.  With those of the clients they are all that can
be done next (`Sane.step`, `Tracks.step`).
-/

namespace TopicDirectory.Service

open Exchange (Host Peer)

/-! ## What the host does -/

theorem serve_eq {s : Service} {f : Host → Option Host} {h' : Host}
    (hf : f s.server.host = some h') : s.serve f = { s with server.host := h' } := by
  rw [serve, hf]

theorem serve_of_none {s : Service} {f : Host → Option Host} (hf : f s.server.host = none) :
    s.serve f = s := by
  rw [serve, hf]

theorem serve_cases (s : Service) (f : Host → Option Host) :
    s.serve f = s ∨ ∃ h', f s.server.host = some h' ∧ s.serve f = { s with server.host := h' } := by
  cases hf : f s.server.host with
  | none => exact .inl (serve_of_none hf)
  | some h' => exact .inr ⟨h', rfl, serve_eq hf⟩

theorem Sane.serve {s : Service} {f : Host → Option Host} {i : Nat} (h : Sane s)
    (hf : ∀ h', f s.server.host = some h' → s.server.host.Serves i h') : Sane (s.serve f) := by
  rcases s.serve_cases f with heq | ⟨h', hstep, heq⟩
  · rw [heq]
    exact h
  · have hserves := hf h' hstep
    rw [heq]
    refine ⟨h.length.trans hserves.length_peers.symm, h.known, ?_, h.registry, h.replies⟩
    intro e he
    rw [h.length]
    exact hserves.lt_of_mem_queue he fun e he => h.length ▸ h.inQueue e he

theorem queued_of_serves {h h' : Host} {i j : Nat} (hs : h.Serves i h') (hij : i ≠ j) :
    queued h' j = queued h j := by
  obtain ⟨p, new, -, hnew, rfl⟩ := hs
  have hnone : new.filterMap (fun e => if e.1 = j then some e.2 else none) = [] :=
    List.filterMap_eq_nil_iff.2 fun e he => if_neg (hnew e he ▸ hij)
  rw [queued, queued, List.filterMap_append, hnone, List.append_nil]

/-- What the host does for a client has nothing to do with the other clients. -/
theorem Tracks.serve_of_ne {s : Service} {f : Host → Option Host} {i j : Nat} (h : Tracks s j)
    (hf : ∀ h', f s.server.host = some h' → s.server.host.Serves i h') (hij : i ≠ j) :
    Tracks (s.serve f) j := by
  rcases s.serve_cases f with heq | ⟨h', hstep, heq⟩
  · rw [heq]
    exact h
  · have hserves := hf h' hstep
    rw [heq]
    exact h.frame [] (hserves.peers_of_ne hij) rfl (queued_of_serves hserves hij)
      (List.append_nil _).symm nofun

/-- What the host does for a client is one more step of the client's conversation. -/
theorem Tracks.serve_self {s : Service} {f : Host → Option Host} {i : Nat} (h : Tracks s i)
    (hf : ∀ h', f s.server.host = some h' → ∃ p q, s.server.host.peers[i]? = some p ∧
      h'.peers[i]? = some q ∧ ∀ c, s.clients[i]? = some c →
        Conversation p c (queued s.server.host i) (asks s.log i) (deals s.log i) (gains s.log i) →
        Conversation q c (queued h' i) (asks s.log i) (deals s.log i) (gains s.log i)) :
    Tracks (s.serve f) i := by
  rcases s.serve_cases f with heq | ⟨h', hstep, heq⟩
  · rw [heq]
    exact h
  · obtain ⟨p, q, hp, hq, hnext⟩ := hf h' hstep
    rw [heq]
    refine ⟨h.orderly, ?_⟩
    intro q' c hq' hc
    obtain rfl := Option.some.inj (hq.symm.trans hq')
    exact hnext c hc (h.conversation p c hp hc)

theorem Tracks.accept {s : Service} {i : Nat} (h : Tracks s i) :
    Tracks (s.serve (·.accept? i)) i := by
  apply h.serve_self
  intro h' hstep
  obtain ⟨p, hp, hphase, rfl⟩ := Host.accept?_eq_some hstep
  exact ⟨p, _, hp, Host.getElem?_set_self hp, fun c _ hc => hc.accept hphase⟩

theorem Tracks.read {s : Service} {i : Nat} (h : Tracks s i) : Tracks (s.serve (·.read? i)) i := by
  apply h.serve_self
  intro h' hstep
  obtain ⟨p, hp, hphase, ⟨request, rest, hread, rfl⟩ | ⟨-, rest, -, -, rfl⟩⟩ :=
    Host.read?_eq_some hstep
  · exact ⟨p, _, hp, Host.getElem?_set_self hp, fun c _ hc => hc.read hphase hread⟩
  · refine ⟨p, _, hp, Host.getElem?_set_self hp, fun c _ hc => hc.leave ?_ rfl rfl⟩
    rw [hphase]
    nofun

theorem Tracks.enqueue {s : Service} {i : Nat} (h : Tracks s i) :
    Tracks (s.serve (·.enqueue? i)) i := by
  apply h.serve_self
  intro h' hstep
  obtain ⟨p, request, hp, hphase, rfl⟩ := Host.enqueue?_eq_some hstep
  refine ⟨p, _, hp, Host.getElem?_set_self hp, fun c _ hc => ?_⟩
  have hqueue : queued { s.server.host.set i { p with phase := .waiting } with
      queue := s.server.host.queue ++ [(i, request)] } i
        = queued s.server.host i ++ [request] := by
    simp [queued]
  rw [hqueue]
  exact hc.enqueue hphase

theorem Tracks.write {s : Service} {i : Nat} (h : Tracks s i) (hframed : Framed s i) :
    Tracks (s.serve (·.write? i)) i := by
  apply h.serve_self
  intro h' hstep
  obtain ⟨p, reply, hp, hphase, ⟨hlimit, rfl⟩ | ⟨-, rfl⟩⟩ :=
    Host.write?_eq_some hstep
  · exact ⟨p, _, hp, Host.getElem?_set_self hp, fun c hc hconversation =>
      hconversation.write hphase hlimit (hframed c hc).2⟩
  · refine ⟨p, _, hp, Host.getElem?_set_self hp, fun c _ hc => hc.leave ?_ rfl rfl⟩
    rw [hphase]
    nofun

/-! ## What the loop does -/

theorem requests_dispatched (log : List Event) (t : Ticket) (request reply : List UInt8) :
    requests (log ++ [.dispatched t request reply]) = requests log ++ [request] := by
  simp [requests]

theorem replies_dispatched (log : List Event) (t : Ticket) (request reply : List UInt8) :
    replies (log ++ [.dispatched t request reply]) = replies log ++ [reply] := by
  simp [replies]

/-- What the loop does with a request. -/
theorem dispatch_cases (s : Service) :
    s.dispatch = s ∨ s.due = false ∧ ∃ i request rest,
      s.server.host.queue = (i, request) :: rest ∧
      s.dispatch = { s with
        server.host := { s.server.host with queue := rest }.hand i
          (.reply (Directory.dispatch s.server.state.registry request).reply.encode)
        server.state.registry :=
          (Directory.dispatch s.server.state.registry request).registry s.server.state.registry
        due := (Directory.dispatch s.server.state.registry request).changed.isSome
        log := s.log ++ [.dispatched ⟨i, (deals s.log i).length⟩ request
          (Directory.dispatch s.server.state.registry request).reply.encode] } := by
  rw [dispatch]
  cases hdue : s.due with
  | true => exact .inl rfl
  | false =>
    cases htake : s.server.host.take? with
    | none => exact .inl rfl
    | some taken =>
      obtain ⟨⟨i, request⟩, host⟩ := taken
      obtain ⟨hqueue, hhost⟩ := Host.take?_eq_some htake
      refine .inr ⟨rfl, i, request, host.queue, hqueue, ?_⟩
      rw [← hhost]
      rfl

theorem Sane.dispatch {s : Service} (h : Sane s) : Sane s.dispatch := by
  rcases s.dispatch_cases with heq | ⟨-, i, request, rest, hqueue, heq⟩
  · rw [heq]
    exact h
  · have hi : i < s.clients.length := h.inQueue (i, request) (hqueue ▸ List.mem_cons_self)
    rw [heq]
    refine ⟨?_, ?_, ?_, ?_, ?_⟩
    · rw [Host.length_peers_hand]
      exact h.length
    · intro e he
      rcases List.mem_append.1 he with he | he
      · exact h.known e he
      · rw [List.mem_singleton.1 he]
        exact hi
    · intro e he
      rw [Host.queue_hand] at he
      exact h.inQueue e (hqueue ▸ List.mem_cons_of_mem _ he)
    · rw [registryAfter, requests_dispatched, Registry.fed_concat, ← registryAfter, ← h.registry]
    · rw [requests_dispatched, replies_dispatched, Registry.replies_concat, ← registryAfter,
        ← h.registry, ← h.replies]

theorem Tracks.dispatch {s : Service} {i : Nat} (hs : Sane s) (h : Tracks s i) :
    Tracks s.dispatch i := by
  rcases s.dispatch_cases with heq | ⟨-, j, request, rest, hqueue, heq⟩
  · rw [heq]
    exact h
  · rw [heq]
    by_cases hij : j = i
    · subst hij
      have hj : j < s.clients.length := hs.inQueue (j, request) (hqueue ▸ List.mem_cons_self)
      obtain ⟨p, hp⟩ : ∃ p, s.server.host.peers[j]? = some p :=
        ⟨_, List.getElem?_eq_getElem (hs.length ▸ hj)⟩
      obtain ⟨c, hc⟩ : ∃ c, s.clients[j]? = some c := ⟨_, List.getElem?_eq_getElem hj⟩
      have hconversation := h.conversation p c hp hc
      have hfront : queued s.server.host j
          = request :: queued { s.server.host with queue := rest } j := by
        simp [queued, hqueue]
      rw [hfront] at hconversation
      obtain ⟨hphase, hasked, hnext⟩ := hconversation.dispatch
        (Directory.dispatch s.server.state.registry request).reply.encode
      have hdeals : deals [.dispatched ⟨j, (deals s.log j).length⟩ request
          (Directory.dispatch s.server.state.registry request).reply.encode] j
            = [(request, (Directory.dispatch s.server.state.registry request).reply.encode)] :=
        deals_dispatched ⟨j, (deals s.log j).length⟩ request _
      refine ⟨h.orderly.concat fun _ => ⟨rfl, hasked⟩, fun q d hq hd => ?_⟩
      obtain rfl := Option.some.inj (hc.symm.trans hd)
      have hhand := Host.hand_reply (h := { s.server.host with queue := rest }) hp hphase
        (Directory.dispatch s.server.state.registry request).reply.encode
      rw [hhand] at hq ⊢
      obtain rfl := Option.some.inj ((Host.getElem?_set_self
        (h := { s.server.host with queue := rest }) hp).symm.trans hq)
      rw [asks_append, deals_append, gains_append, asks_dispatched, hdeals, gains_dispatched,
        List.append_nil, List.append_nil]
      exact hnext
    · refine h.frame [_] (Host.peers_hand_of_ne _ _ hij) rfl ?_ rfl ?_
      · simp only [queued, Host.queue_hand, hqueue, List.filterMap_cons, if_neg hij]
      · intro e he
        rw [List.mem_singleton.1 he]
        exact hij

/-! ## What concerns no call -/

/-- Whether two states of the directory differ in nothing that concerns calls. -/
structure SameCalls (s s' : Service) : Prop where
  host : s'.server.host = s.server.host
  registry : s'.server.state.registry = s.server.state.registry
  clients : s'.clients = s.clients
  log : s'.log = s.log

theorem sameCalls_broadcast (s : Service) : SameCalls s s.broadcast := by
  rw [broadcast]
  split <;> exact ⟨rfl, rfl, rfl, rfl⟩

theorem sameCalls_attend (s : Service) (f : Feed → Option Feed) : SameCalls s (s.attend f) := by
  rw [attend]
  split <;> exact ⟨rfl, rfl, rfl, rfl⟩

theorem Sane.of_sameCalls {s s' : Service} (h : Sane s) (hs : SameCalls s s') : Sane s' where
  length := by
    rw [hs.clients, hs.host]
    exact h.length
  known := by
    rw [hs.clients, hs.log]
    exact h.known
  inQueue := by
    rw [hs.clients, hs.host]
    exact h.inQueue
  registry := by
    rw [hs.registry, hs.log]
    exact h.registry
  replies := by
    rw [hs.log]
    exact h.replies

theorem Tracks.of_sameCalls {s s' : Service} {i : Nat} (h : Tracks s i) (hs : SameCalls s s') :
    Tracks s' i :=
  h.frame [] (by rw [hs.host]) (by rw [hs.clients]) (by rw [hs.host])
    (by rw [hs.log, List.append_nil]) nofun

/-! ## A client more -/

theorem Sane.join {s : Service} (h : Sane s) (limit : Nat) : Sane (s.step (.join limit)) where
  length := by
    show (s.clients ++ [_]).length = (s.server.host.peers ++ [_]).length
    rw [List.length_append, List.length_append, h.length]
    rfl
  known e he := by
    show _ < (s.clients ++ [_]).length
    have hlt := h.known e he
    rw [List.length_append]
    omega
  inQueue e he := by
    show _ < (s.clients ++ [_]).length
    have hlt := h.inQueue e he
    rw [List.length_append]
    omega
  registry := h.registry
  replies := h.replies

theorem Tracks.join {s : Service} {i : Nat} (hs : Sane s) (h : Tracks s i) (limit : Nat) :
    Tracks (s.step (.join limit)) i := by
  rcases Nat.lt_trichotomy i s.clients.length with hlt | heq | hgt
  · refine h.frame [] ?_ ?_ rfl (List.append_nil _).symm nofun
    · exact List.getElem?_append_left (hs.length ▸ hlt)
    · exact List.getElem?_append_left hlt
  · have hown : ∀ e ∈ s.log, e.ticket.client ≠ i := fun e he =>
      Nat.ne_of_lt (heq ▸ hs.known e he)
    obtain ⟨hasks, hdeals, hgains⟩ := views_eq_nil hown
    have hqueue : queued s.server.host i = [] :=
      List.filterMap_eq_nil_iff.2 fun e he => if_neg (Nat.ne_of_lt (heq ▸ hs.inQueue e he))
    refine ⟨h.orderly, ?_⟩
    intro p c hp hc
    have hpeer : (s.server.host.peers ++ [({} : Peer)])[i]? = some {} := by
      rw [heq, hs.length, List.getElem?_concat_length]
    have hclient : (s.clients ++ [({ caller := { limit } } : Client)])[i]?
        = some { caller := { limit } } := by
      rw [heq, List.getElem?_concat_length]
    obtain rfl := Option.some.inj (hpeer.symm.trans hp)
    obtain rfl := Option.some.inj (hclient.symm.trans hc)
    show Conversation _ _ (queued s.server.host i) (asks s.log i) (deals s.log i) (gains s.log i)
    rw [hqueue, hasks, hdeals, hgains]
    exact .start limit
  · refine h.frame [] ?_ ?_ rfl (List.append_nil _).symm nofun
    · show (s.server.host.peers ++ [_])[i]? = _
      rw [List.getElem?_eq_none (by simp [← hs.length]; omega),
        List.getElem?_eq_none (by rw [← hs.length]; omega)]
    · show (s.clients ++ [_])[i]? = _
      rw [List.getElem?_eq_none (by simp; omega), List.getElem?_eq_none (by omega)]

/-! ## All moves -/

/-- The client whose own doing a move is. -/
def Move.actor? : Move → Option Nat
  | issue i _ | collect i | timeOut i | hangUp i => some i
  | _ => none

/-- The client for whom the host does something in a move. -/
def Move.served? : Move → Option Nat
  | accept i | read i | enqueue i | write i => some i
  | _ => none

/-- The attachment on whose connection something is done in a move. -/
def Move.attached? : Move → Option Nat
  | attend j _ => some j
  | _ => none

/-- What can become of a directory in one move. -/
inductive Moves (s : Service) : Move → Service → Prop
  | join (limit : Nat) : Moves s (.join limit) (s.step (.join limit))
  | act {m : Move} {i : Nat} {f : Client → Link → Client × Link × List Event}
    (hm : m.actor? = some i) (h : OwnDoing i f) : Moves s m (s.act i f)
  | serve {m : Move} {i : Nat} {f : Host → Option Host} (hm : m.served? = some i)
    (h : ∀ h', f s.server.host = some h' → s.server.host.Serves i h') : Moves s m (s.serve f)
  | dispatch : Moves s .dispatch s.dispatch
  | broadcast : Moves s .broadcast s.broadcast
  | attend {m : Move} {f : Feed → Option Feed}
    (h : ∀ feed, f s.server.feed = some feed → s.server.feed.Attends m.attached? feed) :
    Moves s m (s.attend f)

theorem moves_step (s : Service) (m : Move) : Moves s m (s.step m) := by
  cases m with
  | join limit => exact .join limit
  | issue i request => exact .act rfl (ownDoing_issue ⟨i, (asks s.log i).length⟩ request)
  | collect i => exact .act rfl (ownDoing_collect ⟨i, (asks s.log i).length - 1⟩)
  | timeOut i => exact .act rfl (ownDoing_timeOut i)
  | hangUp i => exact .act rfl (ownDoing_hangUp i)
  | accept i => exact .serve (f := (·.accept? i)) rfl fun _ => Host.serves_accept?
  | read i => exact .serve (f := (·.read? i)) rfl fun _ => Host.serves_read?
  | enqueue i => exact .serve (f := (·.enqueue? i)) rfl fun _ => Host.serves_enqueue?
  | write i => exact .serve (f := (·.write? i)) rfl fun _ => Host.serves_write?
  | dispatch => exact .dispatch
  | broadcast => exact .broadcast
  | attach =>
    rw [step]
    apply Moves.attend
    intro feed hfeed
    rw [← Option.some.inj hfeed]
    exact .call
  | feed a =>
    rw [step]
    exact .attend fun feed hfeed => .step (Feed.steps_step? hfeed)
  | attend j l =>
    rw [step]
    apply Moves.attend
    intro feed hfeed
    obtain ⟨a, ha, rfl⟩ := Option.map_eq_some_iff.1 hfeed
    exact .link ha l

theorem Sane.moves {s s' : Service} {m : Move} (h : Sane s) (hs : Moves s m s') : Sane s' := by
  cases hs with
  | join limit => exact h.join limit
  | act _ hf => exact h.act hf
  | serve _ hf => exact h.serve hf
  | dispatch => exact h.dispatch
  | broadcast => exact h.of_sameCalls s.sameCalls_broadcast
  | attend => exact h.of_sameCalls (s.sameCalls_attend _)

theorem Sane.step {s : Service} (h : Sane s) (m : Move) : Sane (s.step m) :=
  h.moves (s.moves_step m)

theorem Sane.run {s : Service} (h : Sane s) (ms : List Move) : Sane (s.run ms) := by
  induction ms generalizing s with
  | nil => exact h
  | cons m ms ih => exact ih (h.step m)

/-! ## What only grows -/

/-- Whether a state of the directory can come after another. -/
structure Grows (s s' : Service) : Prop where
  log : s.log <+: s'.log
  limit : s'.server.host.limit = s.server.host.limit
  clients : ∀ (i : Nat) (c : Client), s.clients[i]? = some c →
    ∃ d : Client, s'.clients[i]? = some d ∧ d.caller.limit = c.caller.limit

theorem grows_refl (s : Service) : Grows s s :=
  ⟨List.prefix_refl _, rfl, fun _ c hc => ⟨c, hc, rfl⟩⟩

theorem Grows.trans {s s' s'' : Service} (h : Grows s s') (h' : Grows s' s'') : Grows s s'' := by
  refine ⟨h.log.trans h'.log, h'.limit.trans h.limit, ?_⟩
  intro i c hc
  obtain ⟨d, hd, hlimit⟩ := h.clients i c hc
  obtain ⟨e, he, hlimit'⟩ := h'.clients i d hd
  exact ⟨e, he, hlimit'.trans hlimit⟩

theorem grows_act (s : Service) {i : Nat} {f : Client → Link → Client × Link × List Event}
    (hf : OwnDoing i f) : Grows s (s.act i f) := by
  cases hc : s.clients[i]? with
  | none =>
    rw [act_of_none (.inl hc)]
    exact grows_refl s
  | some c =>
    cases hp : s.server.host.peers[i]? with
    | none =>
      rw [act_of_none (.inr hp)]
      exact grows_refl s
    | some p =>
      rw [act_eq hc hp]
      refine ⟨List.prefix_append _ _, rfl, ?_⟩
      intro j d hd
      by_cases hij : i = j
      · subst hij
        obtain rfl := Option.some.inj (hc.symm.trans hd)
        obtain ⟨hi, -⟩ := List.getElem?_eq_some_iff.1 hc
        exact ⟨_, List.getElem?_set_self hi, (hf c p.link).2.2.2.1⟩
      · exact ⟨d, (List.getElem?_set_ne hij).trans hd, rfl⟩

theorem SameCalls.grows {s s' : Service} (hs : SameCalls s s') : Grows s s' where
  log := ⟨[], by rw [List.append_nil, hs.log]⟩
  limit := by rw [hs.host]
  clients i c hc := by
    rw [hs.clients]
    exact ⟨c, hc, rfl⟩

theorem Moves.grows {s s' : Service} {m : Move} (hs : Moves s m s') : Grows s s' := by
  cases hs with
  | join limit =>
    refine ⟨List.prefix_refl _, rfl, fun i c hc => ⟨c, ?_, rfl⟩⟩
    obtain ⟨hi, -⟩ := List.getElem?_eq_some_iff.1 hc
    exact (List.getElem?_append_left hi).trans hc
  | act _ hf => exact s.grows_act hf
  | @serve m i f _ hf =>
    rcases s.serve_cases f with heq | ⟨h', hstep, heq⟩
    · rw [heq]
      exact grows_refl s
    · rw [heq]
      exact ⟨List.prefix_refl _, (hf h' hstep).limit, fun _ c hc => ⟨c, hc, rfl⟩⟩
  | dispatch =>
    rcases s.dispatch_cases with heq | ⟨-, i, request, rest, -, heq⟩
    · rw [heq]
      exact grows_refl s
    · rw [heq]
      exact ⟨List.prefix_append _ _, Host.limit_hand _ _ _, fun _ c hc => ⟨c, hc, rfl⟩⟩
  | broadcast => exact s.sameCalls_broadcast.grows
  | attend => exact (s.sameCalls_attend _).grows

theorem grows_step (s : Service) (m : Move) : Grows s (s.step m) := (s.moves_step m).grows

theorem grows_run (s : Service) (ms : List Move) : Grows s (s.run ms) := by
  induction ms generalizing s with
  | nil => exact grows_refl s
  | cons m ms ih => exact (s.grows_step m).trans (ih (s.step m))

/-- At most one thing happens to the calls in a move. -/
theorem Moves.length_log_le {s s' : Service} {m : Move} (hs : Moves s m s') :
    s'.log.length ≤ s.log.length + 1 := by
  cases hs with
  | join limit => exact Nat.le_succ _
  | @act m i f _ hf =>
    rw [Service.act]
    split
    · rename_i c p _ _
      rw [List.length_append]
      exact Nat.add_le_add_left (hf c p.link).2.2.2.2 _
    · exact Nat.le_succ _
  | @serve m i f _ hf =>
    rcases s.serve_cases f with heq | ⟨h', -, heq⟩ <;> rw [heq] <;> exact Nat.le_succ _
  | dispatch =>
    rcases s.dispatch_cases with heq | ⟨-, i, request, rest, -, heq⟩
    · rw [heq]
      exact Nat.le_succ _
    · rw [heq, List.length_append]
      exact Nat.le_refl _
  | broadcast =>
    rw [s.sameCalls_broadcast.log]
    exact Nat.le_succ _
  | attend =>
    rw [(s.sameCalls_attend _).log]
    exact Nat.le_succ _

theorem length_log_step_le (s : Service) (m : Move) :
    (s.step m).log.length ≤ s.log.length + 1 := (s.moves_step m).length_log_le

theorem Framed.of_grows {s s' : Service} {i : Nat} (h : Framed s' i) (hs : Grows s s') :
    Framed s i := by
  intro c hc
  obtain ⟨d, hd, hlimit⟩ := hs.clients i c hc
  obtain ⟨es, hlog⟩ := hs.log
  obtain ⟨hasks, hdeals⟩ := h d hd
  rw [← hlog, asks_append] at hasks
  rw [← hlog, deals_append, hs.limit] at hdeals
  refine ⟨?_, ?_⟩
  · intro request hmem
    rw [← hlimit]
    exact hasks request (List.mem_append_left _ hmem)
  · intro d hmem
    exact hdeals d (List.mem_append_left _ hmem)

/-! ## One conversation -/

theorem Tracks.moves_of_ne {s s' : Service} {i : Nat} {m : Move} (hs : Sane s) (h : Tracks s i)
    (hmoves : Moves s m s') (hactor : m.actor? ≠ some i) (hserved : m.served? ≠ some i) :
    Tracks s' i := by
  cases hmoves with
  | join limit => exact h.join hs limit
  | @act _ j _ hm hf =>
    have hij : j ≠ i := by
      rintro rfl
      exact hactor hm
    exact h.act_of_ne hf hij
  | @serve _ j _ hm hf =>
    have hij : j ≠ i := by
      rintro rfl
      exact hserved hm
    exact h.serve_of_ne hf hij
  | dispatch => exact h.dispatch hs
  | broadcast => exact h.of_sameCalls s.sameCalls_broadcast
  | attend => exact h.of_sameCalls (s.sameCalls_attend _)

/-- What a client does is a step of its conversation. -/
theorem Tracks.step_actor {s : Service} {i : Nat} (h : Tracks s i) {m : Move}
    (hm : m.actor? = some i)
    (hissue : ∀ request, m = .issue i request → ∀ c, s.clients[i]? = some c → c.waiting = false →
      Frame.Sound c.caller.limit request) : Tracks (s.step m) i := by
  cases m with
  | issue j request =>
    obtain rfl : j = i := Option.some.inj hm
    exact h.issue (hissue request rfl)
  | collect j =>
    obtain rfl : j = i := Option.some.inj hm
    exact h.collect
  | timeOut j =>
    obtain rfl : j = i := Option.some.inj hm
    exact h.timeOut
  | hangUp j =>
    obtain rfl : j = i := Option.some.inj hm
    exact h.hangUp
  | _ => cases hm

/-- What the host does for a client is a step of its conversation. -/
theorem Tracks.step_served {s : Service} {i : Nat} (h : Tracks s i) {m : Move}
    (hm : m.served? = some i) (hframed : Framed s i) : Tracks (s.step m) i := by
  cases m with
  | accept j =>
    obtain rfl : j = i := Option.some.inj hm
    exact h.accept
  | read j =>
    obtain rfl : j = i := Option.some.inj hm
    exact h.read
  | enqueue j =>
    obtain rfl : j = i := Option.some.inj hm
    exact h.enqueue
  | write j =>
    obtain rfl : j = i := Option.some.inj hm
    exact h.write hframed
  | _ => cases hm

theorem Tracks.step {s : Service} {i : Nat} (hs : Sane s) (h : Tracks s i) {m : Move}
    (hframed : Framed s i)
    (hissue : ∀ request, m = .issue i request → ∀ c, s.clients[i]? = some c → c.waiting = false →
      Frame.Sound c.caller.limit request) : Tracks (s.step m) i := by
  by_cases hactor : m.actor? = some i
  · exact h.step_actor hactor hissue
  · by_cases hserved : m.served? = some i
    · exact h.step_served hserved hframed
    · exact h.moves_of_ne hs (s.moves_step m) hactor hserved

/-- A call that is made is in the log. -/
theorem Sane.asks_issue {s : Service} (h : Sane s) {i : Nat} {c : Client}
    (hc : s.clients[i]? = some c) (hidle : c.waiting = false) (request : List UInt8) :
    asks (s.step (.issue i request)).log i = asks s.log i ++ [request] := by
  obtain ⟨hi, -⟩ := List.getElem?_eq_some_iff.1 hc
  obtain ⟨p, hp⟩ : ∃ p, s.server.host.peers[i]? = some p :=
    ⟨_, List.getElem?_eq_getElem (h.length ▸ hi)⟩
  have hevents : (c.issue ⟨i, (asks s.log i).length⟩ request p.link).2.2
      = [.issued ⟨i, (asks s.log i).length⟩ request] := by
    rcases Client.issue_cases ⟨i, (asks s.log i).length⟩ request p.link hidle with
      heq | ⟨-, -, -, heq⟩ <;> rw [heq]
  have hasks : asks [.issued ⟨i, (asks s.log i).length⟩ request] i = [request] :=
    asks_issued ⟨i, (asks s.log i).length⟩ request
  rw [Service.step, act_eq hc hp, hevents, asks_append, hasks]

/-- A request is framed if the log in which it comes to stand is. -/
theorem Framed.sound {s : Service} (hs : Sane s) {i : Nat} {request : List UInt8}
    (h : Framed (s.step (.issue i request)) i) {c : Client} (hc : s.clients[i]? = some c)
    (hidle : c.waiting = false) : Frame.Sound c.caller.limit request := by
  obtain ⟨d, hd, hlimit⟩ := (s.grows_step (.issue i request)).clients i c hc
  have hmem : request ∈ asks (s.step (.issue i request)).log i := by
    rw [hs.asks_issue hc hidle]
    exact List.mem_append_right _ List.mem_cons_self
  rw [← hlimit]
  exact (h d hd).1 request hmem

theorem Tracks.run {s : Service} {i : Nat} (hs : Sane s) (h : Tracks s i) {ms : List Move}
    (hframed : Framed (s.run ms) i) : Tracks (s.run ms) i := by
  induction ms generalizing s with
  | nil => exact h
  | cons m ms ih =>
    -- the log only grows, so what is framed at the end was framed all the time
    have hnext : Framed (s.step m) i := hframed.of_grows (grows_run _ ms)
    refine ih (hs.step m) (h.step hs (hnext.of_grows (s.grows_step m)) ?_) hframed
    rintro request rfl c hc hidle
    exact hnext.sound hs hc hidle

end TopicDirectory.Service
