import TopicDirectory.Proofs.Service.Separation

/-!
# What has become of a client's requests

The requests of a client that were dealt with, with the replies to them, and those that were not
(`Ledger`).  The client itself can only add to those that were not; in every other move either the
ledger stays as it is, and the registry too unless the request of somebody else is dealt with, or it
is the next request of the client that is (`Passes`).
-/

namespace TopicDirectory.Service

open Exchange (Peer)

/-- The registry of the directory. -/
def registry (s : Service) : Registry := s.server.state.registry

/-- The requests of all clients but one that were dealt with. -/
def foreign (log : List Event) (i : Nat) : List (List UInt8) :=
  log.filterMap fun
    | .dispatched t request _ => if t.client = i then none else some request
    | _ => none

/-- A client, those of its requests that were dealt with, with the replies, and those that were
not. -/
structure Ledger (s : Service) (i : Nat) (c : Client) (done : List (List UInt8 × List UInt8))
    (ahead : List (List UInt8)) : Prop where
  tracks : Tracks s i
  client : s.clients[i]? = some c
  dealt : deals s.log i = done
  asked : asks s.log i = done.map (·.1) ++ ahead

variable {s s' : Service} {i : Nat} {c : Client} {p : Peer} {q : List UInt8}
  {done : List (List UInt8 × List UInt8)} {ahead : List (List UInt8)}

theorem Ledger.exists_peer (h : Ledger s i c done ahead) (hs : Sane s) :
    ∃ p, s.server.host.peers[i]? = some p := by
  obtain ⟨hi, -⟩ := List.getElem?_eq_some_iff.1 h.client
  exact ⟨_, List.getElem?_eq_getElem (hs.length ▸ hi)⟩

/-! ## What the others do -/

theorem mem_foreign {log : List Event} {t : Ticket} {q r : List UInt8} (ht : t.client ≠ i) :
    q ∈ foreign (log ++ [.dispatched t q r]) i := by
  rw [foreign, List.filterMap_append]
  apply List.mem_append_right
  simp [ht]

theorem foreign_mono {log log' : List Event} (h : log <+: log') : foreign log i <+: foreign log' i :=
  h.filterMap _

/-- The registry changes in the loop only. -/
theorem Moves.registry {m : Move} (hs : Moves s m s') (hm : m ≠ .dispatch) :
    s'.registry = s.registry := by
  cases hs with
  | join limit => rfl
  | act =>
    rw [Service.act]
    split <;> rfl
  | serve =>
    rw [Service.serve]
    split <;> rfl
  | dispatch => exact absurd rfl hm
  | broadcast => exact s.sameCalls_broadcast.registry
  | attend => exact (s.sameCalls_attend _).registry

/-- A client is changed by what it does itself only. -/
theorem Moves.client {m : Move} (hs : Moves s m s') (hm : m.actor? ≠ some i)
    (hc : s.clients[i]? = some c) : s'.clients[i]? = some c := by
  cases hs with
  | join limit =>
    obtain ⟨hi, -⟩ := List.getElem?_eq_some_iff.1 hc
    exact (List.getElem?_append_left hi).trans hc
  | @act _ j _ hactor =>
    have hij : j ≠ i := by
      rintro rfl
      exact hm hactor
    rw [Service.act]
    split
    · exact (List.getElem?_set_ne hij).trans hc
    · exact hc
  | serve =>
    rw [Service.serve]
    split <;> exact hc
  | dispatch =>
    rcases s.dispatch_cases with heq | ⟨-, j, request, rest, -, heq⟩
    · rw [heq]
      exact hc
    · rw [heq]
      exact hc
  | broadcast =>
    rw [s.sameCalls_broadcast.clients]
    exact hc
  | attend =>
    rw [(s.sameCalls_attend _).clients]
    exact hc

/-- What can become of a client's requests and of the registry in a move that is not the client's
own. -/
inductive Passes (s s' : Service) (i : Nat) (c : Client) (done : List (List UInt8 × List UInt8)) :
    List (List UInt8) → Prop
  /-- Nothing is dealt with. -/
  | nothing {ahead : List (List UInt8)} (h : Ledger s' i c done ahead)
    (hregistry : s'.registry = s.registry) : Passes s s' i c done ahead
  /-- A request of somebody else is dealt with. -/
  | other {ahead : List (List UInt8)} {q : List UInt8} (h : Ledger s' i c done ahead)
    (hq : q ∈ foreign s'.log i)
    (hregistry : s'.registry = (Directory.dispatch s.registry q).registry s.registry) :
    Passes s s' i c done ahead
  /-- The next request of the client is dealt with. -/
  | own {ahead : List (List UInt8)} {q : List UInt8}
    (h : Ledger s' i c (done ++ [(q, (Directory.dispatch s.registry q).reply.encode)]) ahead)
    (hregistry : s'.registry = (Directory.dispatch s.registry q).registry s.registry) :
    Passes s s' i c done (q :: ahead)

theorem Ledger.dispatch (h : Ledger s i c done ahead) (hs : Sane s) :
    Passes s s.dispatch i c done ahead := by
  have htracks := h.tracks.dispatch hs
  rcases s.dispatch_cases with heq | ⟨-, j, q, rest, -, heq⟩
  · rw [heq]
    exact .nothing h rfl
  · rw [heq] at htracks ⊢
    by_cases hij : j = i
    · subst hij
      -- the request is the one at the place of the first that was not dealt with
      obtain ⟨-, hnext⟩ := htracks.orderly.justified rfl
      have hfirst : (done.map (·.1) ++ ahead)[done.length]? = some q := by
        rw [← h.asked, ← h.dealt]
        exact hnext
      rw [List.getElem?_append_right (Nat.le_of_eq (List.length_map _)), List.length_map, Nat.sub_self,
        ← List.head?_eq_getElem?] at hfirst
      obtain ⟨ahead, rfl⟩ := List.head?_eq_some_iff.1 hfirst
      have hdeals : deals [.dispatched ⟨j, (deals s.log j).length⟩ q
          (Directory.dispatch s.server.state.registry q).reply.encode] j
            = [(q, (Directory.dispatch s.server.state.registry q).reply.encode)] :=
        deals_dispatched ⟨j, (deals s.log j).length⟩ q _
      refine .own ⟨htracks, h.client, ?_, ?_⟩ rfl
      · rw [deals_append, hdeals, h.dealt]
        rfl
      · rw [asks_append, asks_dispatched, List.append_nil, h.asked]
        simp
    · obtain ⟨hasks, hdeals, -⟩ := views_of_ne (i := i) (e := .dispatched
        ⟨j, (deals s.log j).length⟩ q (Directory.dispatch s.server.state.registry q).reply.encode) hij
      refine .other ⟨htracks, h.client, ?_, ?_⟩ (mem_foreign hij) rfl
      · rw [deals_append, hdeals, List.append_nil, h.dealt]
      · rw [asks_append, hasks, List.append_nil, h.asked]

/-- While the client does nothing, its requests are dealt with one after the other. -/
theorem Ledger.step (h : Ledger s i c done ahead) (hs : Sane s) (hframed : Framed s i) {m : Move}
    (hm : m.actor? ≠ some i) : Passes s (s.step m) i c done ahead := by
  by_cases hdispatch : m = .dispatch
  · subst hdispatch
    exact h.dispatch hs
  · have hmoves := s.moves_step m
    have htracks : Tracks (s.step m) i := by
      refine h.tracks.step hs hframed ?_
      rintro request rfl
      exact absurd rfl hm
    exact .nothing ⟨htracks, hmoves.client hm h.client, (hmoves.deals hdispatch i).trans h.dealt,
      (hmoves.asks hm).trans h.asked⟩ (hmoves.registry hdispatch)

/-! ## What the client does -/

/-- A client that has just connected has made no request. -/
theorem ledger_join (hs : Sane s) (limit : Nat) :
    Ledger (s.step (.join limit)) s.clients.length { caller := { limit } } [] [] := by
  have hown : ∀ e ∈ s.log, e.ticket.client ≠ s.clients.length := fun e he =>
    Nat.ne_of_lt (hs.known e he)
  obtain ⟨hasks, hdeals, -⟩ := views_eq_nil hown
  refine ⟨(Tracks.of_length_le hs (Nat.le_refl _)).join hs limit, ?_, hdeals, hasks⟩
  show (s.clients ++ [_])[s.clients.length]? = _
  rw [List.getElem?_concat_length]

theorem Ledger.act {f : Client → Link → Client × Link × List Event} {more : List (List UInt8)}
    (h : Ledger s i c done ahead) (hp : s.server.host.peers[i]? = some p) (hf : OwnDoing i f)
    (htracks : Tracks (s.act i f) i) (hmore : asks (f c p.link).2.2 i = more) :
    Ledger (s.act i f) i (f c p.link).1 done (ahead ++ more) := by
  obtain ⟨hi, -⟩ := List.getElem?_eq_some_iff.1 h.client
  refine ⟨htracks, ?_, (s.deals_act hf).trans h.dealt, ?_⟩
  · rw [act_eq h.client hp]
    exact List.getElem?_set_self hi
  · rw [act_eq h.client hp, asks_append, hmore, h.asked, List.append_assoc]

/-- A request more that was not dealt with. -/
theorem Ledger.issue (h : Ledger s i c done ahead) (hp : s.server.host.peers[i]? = some p)
    (hidle : c.waiting = false) (hsound : Frame.Sound c.caller.limit q) :
    Ledger (s.step (.issue i q)) i
      ⟨(c.caller.post p.link q).2.1, (c.caller.post p.link q).1.isOk⟩ done (ahead ++ [q]) := by
  have htracks : Tracks (s.step (.issue i q)) i := by
    apply h.tracks.issue
    intro d hd _
    obtain rfl := Option.some.inj (h.client.symm.trans hd)
    exact hsound
  have hissue : c.issue ⟨i, (asks s.log i).length⟩ q p.link
      = (⟨(c.caller.post p.link q).2.1, (c.caller.post p.link q).1.isOk⟩,
          (c.caller.post p.link q).2.2, [.issued ⟨i, (asks s.log i).length⟩ q]) := by
    rw [Client.issue, hidle]
    rfl
  have hmore : asks (c.issue ⟨i, (asks s.log i).length⟩ q p.link).2.2 i = [q] := by
    rw [hissue]
    exact asks_issued ⟨i, (asks s.log i).length⟩ q
  have hnext := h.act hp (ownDoing_issue ⟨i, (asks s.log i).length⟩ q) htracks hmore
  rw [hissue] at hnext
  exact hnext

/-- A call that is given up changes nothing for its request. -/
theorem Ledger.timeOut (h : Ledger s i c done ahead) (hp : s.server.host.peers[i]? = some p)
    (hwaiting : c.waiting = true) :
    Ledger (s.step (.timeOut i)) i ⟨c.caller.fail, false⟩ done ahead := by
  have htimeOut : c.timeOut p.link = (⟨c.caller.fail, false⟩, p.link, []) := if_pos hwaiting
  have hmore : asks (c.timeOut p.link).2.2 i = [] := by
    rw [htimeOut]
    rfl
  have hnext := h.act hp (ownDoing_timeOut i) h.tracks.timeOut hmore
  rw [htimeOut, List.append_nil] at hnext
  exact hnext

/-- With the answer to a call all requests were dealt with, and it is the reply to the last one. -/
theorem Ledger.collect (h : Ledger s i c done ahead) (hp : s.server.host.peers[i]? = some p)
    (hwaiting : c.waiting = true) :
    (∃ fault, (c.caller.collect p.link).1 = .error fault ∧
      Ledger (s.step (.collect i)) i ⟨c.caller.fail, false⟩ done ahead) ∨
    ∃ reply past request, (c.caller.collect p.link).1 = .ok reply ∧ ahead = [] ∧
      done = past ++ [(request, reply)] ∧
      Ledger (s.step (.collect i)) i ⟨c.caller, false⟩ done ahead := by
  have hnext : ∀ {d : Client} {l : Link} {es : List Event},
      c.collect ⟨i, (asks s.log i).length - 1⟩ p.link = (d, l, es) → asks es i = [] →
      Ledger (s.step (.collect i)) i d done ahead := by
    intro d l es heq hes
    have hmore : asks (c.collect ⟨i, (asks s.log i).length - 1⟩ p.link).2.2 i = [] := by
      rw [heq]
      exact hes
    have hact := h.act hp (ownDoing_collect ⟨i, (asks s.log i).length - 1⟩) h.tracks.collect hmore
    rw [heq, List.append_nil] at hact
    exact hact
  rcases c.caller.collect_cases p.link with ⟨fault, rest, heq⟩ | ⟨reply, rest, hexpect, heq⟩
  · have hcollect : c.collect ⟨i, (asks s.log i).length - 1⟩ p.link
        = (⟨c.caller.fail, false⟩, { p.link with toGuest := rest }, []) := by
      simp [Client.collect, hwaiting, heq]
    exact .inl ⟨fault, by rw [heq], hnext hcollect rfl⟩
  · -- the calls of a client end in turn, so the last one to end is the last one that was made
    obtain ⟨-, hturn, request, hdone⟩ :=
      (h.tracks.conversation p c hp h.client).collect hwaiting hexpect
    rw [h.dealt] at hdone
    obtain ⟨hlt, hget⟩ := List.getElem?_eq_some_iff.1 hdone
    rw [h.asked, List.length_append, List.length_map] at hturn
    have hahead : ahead = [] := List.length_eq_zero_iff.1 (by omega)
    have hlast : done.take (gains s.log i).length ++ [(request, reply)] = done := by
      rw [← hget, List.take_append_getElem, List.take_of_length_le (by omega)]
    have hcollect : c.collect ⟨i, (asks s.log i).length - 1⟩ p.link
        = (⟨c.caller, false⟩, { p.link with toGuest := rest },
            [.returned ⟨i, (asks s.log i).length - 1⟩ reply]) := by
      simp [Client.collect, hwaiting, heq]
    exact .inr ⟨reply, _, request, by rw [heq], hahead, hlast.symm, hnext hcollect rfl⟩

/-- Without an answer nothing changes for the request. -/
theorem Ledger.collect_error {fault : Link.Fault} (h : Ledger s i c done ahead)
    (hp : s.server.host.peers[i]? = some p) (hwaiting : c.waiting = true)
    (hfault : (c.caller.collect p.link).1 = .error fault) :
    Ledger (s.step (.collect i)) i ⟨c.caller.fail, false⟩ done ahead := by
  rcases h.collect hp hwaiting with ⟨-, -, hnext⟩ | ⟨reply, -, -, hok, -⟩
  · exact hnext
  · rw [hok] at hfault
    cases hfault

end TopicDirectory.Service
