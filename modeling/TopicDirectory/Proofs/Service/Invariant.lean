import TopicDirectory.Proofs.Exchange.Caller
import TopicDirectory.Proofs.Exchange.Host
import TopicDirectory.Proofs.Service.Conversation

/-!
# What every move keeps

Two things hold of a directory among its clients whatever is done next: its registry and the replies
it has handed over are those of one run of the requests in the log (`Sane`); and for every client
whose frames can be read again (`Framed`), its part of the log is orderly and its conversation is as
it should be (`Tracks`).
-/

namespace TopicDirectory.Service

open Exchange (Host Peer)

/-- Whether every frame that was written in a client's conversation can be read again. -/
def Framed (s : Service) (i : Nat) : Prop :=
  ∀ c ∈ s.clients[i]?, (∀ request ∈ asks s.log i, Frame.Sound c.caller.limit request) ∧
    ∀ d ∈ deals s.log i, Frame.Sound s.server.host.limit d.2

instance (s : Service) (i : Nat) : Decidable (s.Framed i) := by
  unfold Framed
  infer_instance

/-- The requests of a client that are in the queue. -/
def queued (h : Host) (i : Nat) : List (List UInt8) :=
  h.queue.filterMap fun e => if e.1 = i then some e.2 else none

/-- A directory that has dealt with the requests in its log. -/
structure Sane (s : Service) : Prop where
  length : s.clients.length = s.server.host.peers.length
  known : ∀ e ∈ s.log, e.ticket.client < s.clients.length
  inQueue : ∀ e ∈ s.server.host.queue, e.1 < s.clients.length
  registry : s.server.state.registry = registryAfter s.log
  replies : Service.replies s.log = Registry.replies {} (requests s.log)

/-- A client whose calls go as they should. -/
structure Tracks (s : Service) (i : Nat) : Prop where
  orderly : Orderly i s.log
  conversation : ∀ p c, s.server.host.peers[i]? = some p → s.clients[i]? = some c →
    Conversation p c (queued s.server.host i) (asks s.log i) (deals s.log i) (gains s.log i)

theorem sane_new (c : Config.Server) : Sane (new c) :=
  ⟨rfl, nofun, nofun, rfl, rfl⟩

theorem tracks_new (c : Config.Server) (i : Nat) : Tracks (new c) i :=
  ⟨.nil, nofun⟩

/-! ## What a move has nothing to do with -/

theorem views_eq_nil {es : List Event} {i : Nat} (h : ∀ e ∈ es, e.ticket.client ≠ i) :
    asks es i = [] ∧ deals es i = [] ∧ gains es i = [] := by
  induction es with
  | nil => exact ⟨rfl, rfl, rfl⟩
  | cons e es ih =>
    obtain ⟨hasks, hdeals, hgains⟩ := ih fun e he => h e (List.mem_cons_of_mem _ he)
    obtain ⟨hasks', hdeals', hgains'⟩ := views_of_ne (h e List.mem_cons_self)
    rw [← List.singleton_append, asks_append, deals_append, gains_append, hasks, hdeals, hgains,
      hasks', hdeals', hgains']
    exact ⟨rfl, rfl, rfl⟩

theorem Orderly.append_of_ne {log es : List Event} {i : Nat} (h : Orderly i log)
    (hes : ∀ e ∈ es, e.ticket.client ≠ i) : Orderly i (log ++ es) := by
  induction es generalizing log with
  | nil =>
    rw [List.append_nil]
    exact h
  | cons e es ih =>
    rw [← List.singleton_append, ← List.append_assoc]
    refine ih (h.concat fun he => ?_) fun e he => hes e (List.mem_cons_of_mem _ he)
    exact absurd he (hes e List.mem_cons_self)

/-- What does not concern a client leaves its conversation as it is. -/
theorem Tracks.frame {s s' : Service} {i : Nat} (h : Tracks s i) (es : List Event)
    (hpeer : s'.server.host.peers[i]? = s.server.host.peers[i]?)
    (hclient : s'.clients[i]? = s.clients[i]?)
    (hqueue : queued s'.server.host i = queued s.server.host i) (hlog : s'.log = s.log ++ es)
    (hes : ∀ e ∈ es, e.ticket.client ≠ i) : Tracks s' i := by
  obtain ⟨hasks, hdeals, hgains⟩ := views_eq_nil hes
  refine ⟨hlog ▸ h.orderly.append_of_ne hes, ?_⟩
  intro p c hp hc
  rw [hqueue, hlog, asks_append, deals_append, gains_append, hasks, hdeals, hgains]
  simp only [List.append_nil]
  exact h.conversation p c (hpeer ▸ hp) (hclient ▸ hc)

/-! ## What clients do -/

/-- Whether what is done comes to events of one client in which the directory has no part. -/
def OwnDoing (i : Nat) (f : Client → Link → Client × Link × List Event) : Prop :=
  ∀ c l, (∀ e ∈ (f c l).2.2, e.ticket.client = i) ∧ requests (f c l).2.2 = [] ∧
    replies (f c l).2.2 = [] ∧ (f c l).1.caller.limit = c.caller.limit ∧ (f c l).2.2.length ≤ 1

theorem Client.issue_cases (t : Ticket) (request : List UInt8) {c : Client} (l : Link)
    (hidle : c.waiting = false) :
    c.issue t request l = (⟨c.caller.fail, false⟩, l, [.issued t request]) ∨
    (c.caller.broken = false ∧ request.length ≤ c.caller.limit ∧ l.toHost.closed = false ∧
      c.issue t request l = (⟨c.caller, true⟩,
        { l with toHost := l.toHost.write (Frame.encode request) }, [.issued t request])) := by
  rcases c.caller.post_cases l request with ⟨fault, hpost⟩ | ⟨hok, hlimit, hopen, hpost⟩
  · exact .inl (by simp [issue, hidle, hpost, Except.isOk, Except.toBool])
  · exact .inr ⟨hok, hlimit, hopen, by simp [issue, hidle, hpost, Except.isOk, Except.toBool]⟩

theorem Client.collect_cases (t : Ticket) {c : Client} (l : Link) (hwaiting : c.waiting = true) :
    (∃ rest, c.collect t l = (⟨c.caller.fail, false⟩, { l with toGuest := rest }, [])) ∨
    ∃ reply rest, Frame.expect c.caller.limit l.toGuest = some (.ok reply, rest) ∧
      c.collect t l = (⟨c.caller, false⟩, { l with toGuest := rest }, [.returned t reply]) := by
  rcases c.caller.collect_cases l with ⟨fault, rest, hcollect⟩ | ⟨reply, rest, hexpect, hcollect⟩
  · exact .inl ⟨rest, by simp [collect, hwaiting, hcollect]⟩
  · exact .inr ⟨reply, rest, hexpect, by simp [collect, hwaiting, hcollect]⟩

theorem ownDoing_issue (t : Ticket) (request : List UInt8) :
    OwnDoing t.client (Client.issue t request) := by
  intro c l
  cases hwaiting : c.waiting with
  | true => simp [Client.issue, hwaiting, requests, replies]
  | false =>
    rcases Client.issue_cases t request l hwaiting with heq | ⟨-, -, -, heq⟩ <;> rw [heq] <;>
      exact ⟨by simp [Event.ticket], rfl, rfl, rfl, by simp⟩

theorem ownDoing_collect (t : Ticket) : OwnDoing t.client (Client.collect t) := by
  intro c l
  cases hwaiting : c.waiting with
  | false => simp [Client.collect, hwaiting, requests, replies]
  | true =>
    rcases Client.collect_cases t l hwaiting with ⟨rest, heq⟩ | ⟨reply, rest, -, heq⟩ <;> rw [heq] <;>
      exact ⟨by simp [Event.ticket], rfl, rfl, rfl, by simp⟩

theorem ownDoing_timeOut (i : Nat) : OwnDoing i Client.timeOut := by
  intro c l
  cases hwaiting : c.waiting <;>
    simp [Client.timeOut, hwaiting, requests, replies, Exchange.Caller.fail]

theorem ownDoing_hangUp (i : Nat) : OwnDoing i Client.hangUp := by
  intro c l
  exact ⟨nofun, rfl, rfl, rfl, Nat.zero_le _⟩

theorem act_eq {s : Service} {i : Nat} {c : Client} {p : Peer}
    {f : Client → Link → Client × Link × List Event} (hc : s.clients[i]? = some c)
    (hp : s.server.host.peers[i]? = some p) :
    s.act i f = { s with
      server.host := s.server.host.set i { p with link := (f c p.link).2.1 }
      clients := s.clients.set i (f c p.link).1
      log := s.log ++ (f c p.link).2.2 } := by
  simp only [act, hc, hp]

theorem act_of_none {s : Service} {i : Nat} {f : Client → Link → Client × Link × List Event}
    (h : s.clients[i]? = none ∨ s.server.host.peers[i]? = none) : s.act i f = s := by
  rw [act]
  split
  · simp_all
  · rfl

theorem registryAfter_append {log es : List Event} (h : requests es = []) :
    registryAfter (log ++ es) = registryAfter log := by
  rw [registryAfter, requests, List.filterMap_append, ← requests, ← requests, h, List.append_nil,
    registryAfter]

theorem Sane.act {s : Service} {i : Nat} {f : Client → Link → Client × Link × List Event}
    (h : Sane s) (hf : OwnDoing i f) : Sane (s.act i f) := by
  cases hc : s.clients[i]? with
  | none =>
    rw [act_of_none (.inl hc)]
    exact h
  | some c =>
    cases hp : s.server.host.peers[i]? with
    | none =>
      rw [act_of_none (.inr hp)]
      exact h
    | some p =>
      obtain ⟨hown, hrequests, hreplies, -⟩ := hf c p.link
      obtain ⟨hi, -⟩ := List.getElem?_eq_some_iff.1 hc
      rw [act_eq hc hp]
      refine ⟨?_, ?_, ?_, ?_, ?_⟩
      · simp only [List.length_set, Host.set]
        exact h.length
      · intro e he
        rw [List.length_set]
        rcases List.mem_append.1 he with he | he
        · exact h.known e he
        · rw [hown e he]
          exact hi
      · intro e he
        rw [List.length_set]
        exact h.inQueue e he
      · rw [registryAfter_append hrequests]
        exact h.registry
      · rw [Service.replies, requests, List.filterMap_append, List.filterMap_append, ← Service.replies,
          ← Service.replies, ← requests, ← requests, hrequests, hreplies, List.append_nil,
          List.append_nil]
        exact h.replies

/-- What a client does has nothing to do with the other clients. -/
theorem Tracks.act_of_ne {s : Service} {i j : Nat}
    {f : Client → Link → Client × Link × List Event} (h : Tracks s j) (hf : OwnDoing i f)
    (hij : i ≠ j) : Tracks (s.act i f) j := by
  cases hc : s.clients[i]? with
  | none =>
    rw [act_of_none (.inl hc)]
    exact h
  | some c =>
    cases hp : s.server.host.peers[i]? with
    | none =>
      rw [act_of_none (.inr hp)]
      exact h
    | some p =>
      rw [act_eq hc hp]
      refine h.frame _ ?_ ?_ rfl rfl ?_
      · exact List.getElem?_set_ne hij
      · exact List.getElem?_set_ne hij
      · intro e he
        rw [(hf c p.link).1 e he]
        exact hij

/-- What a client does is one more step of its own conversation. -/
theorem Tracks.act_self {s : Service} {i : Nat} {f : Client → Link → Client × Link × List Event}
    (h : Tracks s i)
    (hf : ∀ p c, s.server.host.peers[i]? = some p → s.clients[i]? = some c →
      Conversation p c (queued s.server.host i) (asks s.log i) (deals s.log i) (gains s.log i) →
      Conversation { p with link := (f c p.link).2.1 } (f c p.link).1 (queued s.server.host i)
          (asks (s.log ++ (f c p.link).2.2) i) (deals (s.log ++ (f c p.link).2.2) i)
          (gains (s.log ++ (f c p.link).2.2) i) ∧
        Orderly i (s.log ++ (f c p.link).2.2)) : Tracks (s.act i f) i := by
  cases hc : s.clients[i]? with
  | none =>
    rw [act_of_none (.inl hc)]
    exact h
  | some c =>
    cases hp : s.server.host.peers[i]? with
    | none =>
      rw [act_of_none (.inr hp)]
      exact h
    | some p =>
      obtain ⟨hconversation, horderly⟩ := hf p c hp hc (h.conversation p c hp hc)
      obtain ⟨hi, -⟩ := List.getElem?_eq_some_iff.1 hc
      rw [act_eq hc hp]
      refine ⟨horderly, ?_⟩
      intro q d hq hd
      obtain rfl := Option.some.inj ((Host.getElem?_set_self hp).symm.trans hq)
      obtain rfl := Option.some.inj ((List.getElem?_set_self hi).symm.trans hd)
      exact hconversation

theorem Tracks.issue {s : Service} {i : Nat} (h : Tracks s i) {request : List UInt8}
    (hsound : ∀ c, s.clients[i]? = some c → c.waiting = false →
      Frame.Sound c.caller.limit request) :
    Tracks (s.act i (Client.issue ⟨i, (asks s.log i).length⟩ request)) i := by
  apply h.act_self
  intro p c hp hc hconversation
  have hasks : asks [.issued ⟨i, (asks s.log i).length⟩ request] i = [request] :=
    asks_issued ⟨i, (asks s.log i).length⟩ request
  cases hwaiting : c.waiting with
  | true =>
    rw [Client.issue, if_pos hwaiting, List.append_nil]
    exact ⟨hconversation, h.orderly⟩
  | false =>
    have horderly : Orderly i (s.log ++ [.issued ⟨i, (asks s.log i).length⟩ request]) :=
      h.orderly.concat fun _ => rfl
    rcases Client.issue_cases ⟨i, (asks s.log i).length⟩ request p.link hwaiting with
      heq | ⟨hok, hlimit, hopen, heq⟩
    · rw [heq, asks_append, deals_append, gains_append, hasks, deals_issued, gains_issued,
        List.append_nil, List.append_nil]
      exact ⟨hconversation.fail rfl rfl _, horderly⟩
    · rw [heq, asks_append, deals_append, gains_append, hasks, deals_issued, gains_issued,
        List.append_nil, List.append_nil]
      exact ⟨hconversation.issue hok hwaiting hopen (hsound c hc hwaiting hlimit), horderly⟩

theorem Tracks.collect {s : Service} {i : Nat} (h : Tracks s i) :
    Tracks (s.act i (Client.collect ⟨i, (asks s.log i).length - 1⟩)) i := by
  apply h.act_self
  intro p c hp hc hconversation
  cases hwaiting : c.waiting with
  | false =>
    rw [Client.collect, if_neg (by rw [hwaiting]; nofun), List.append_nil]
    exact ⟨hconversation, h.orderly⟩
  | true =>
    rcases Client.collect_cases ⟨i, (asks s.log i).length - 1⟩ p.link hwaiting with
      ⟨rest, heq⟩ | ⟨reply, rest, hexpect, heq⟩
    · rw [heq, List.append_nil]
      have hfail := hconversation.fail (q := { p with link.toGuest := rest }) rfl rfl []
      rw [List.append_nil] at hfail
      exact ⟨hfail, h.orderly⟩
    · obtain ⟨hnext, hturn, request, hdone⟩ := hconversation.collect hwaiting hexpect
      have hnumber : (asks s.log i).length - 1 = (gains s.log i).length := by omega
      have hgains : gains [.returned ⟨i, (asks s.log i).length - 1⟩ reply] i = [reply] :=
        gains_returned ⟨i, (asks s.log i).length - 1⟩ reply
      rw [heq, asks_append, deals_append, gains_append, hgains, asks_returned, deals_returned,
        List.append_nil, List.append_nil]
      refine ⟨hnext, h.orderly.concat fun _ => ⟨hnumber, ?_, request, ?_⟩⟩
      · rw [hnumber]
        exact hturn
      · rw [hnumber]
        exact hdone

/-- A client whose call is given up, or who leaves. -/
theorem Tracks.fail {s : Service} {i : Nat} {f : Client → Link → Client × Link × List Event}
    (h : Tracks s i)
    (hf : ∀ c l, f c l = (c, l, []) ∨ ∃ l' : Link,
      l'.toHost.unread = l.toHost.unread ∧ f c l = (⟨c.caller.fail, false⟩, l', [])) :
    Tracks (s.act i f) i := by
  apply h.act_self
  intro p c hp hc hconversation
  rcases hf c p.link with heq | ⟨l, hunread, heq⟩
  · rw [heq, List.append_nil]
    exact ⟨hconversation, h.orderly⟩
  · rw [heq, List.append_nil]
    have hfail := hconversation.fail (q := { p with link := l }) rfl hunread []
    rw [List.append_nil] at hfail
    exact ⟨hfail, h.orderly⟩

theorem Tracks.timeOut {s : Service} {i : Nat} (h : Tracks s i) :
    Tracks (s.act i Client.timeOut) i := by
  apply h.fail
  intro c l
  cases hwaiting : c.waiting with
  | false => exact .inl (by simp [Client.timeOut, hwaiting])
  | true => exact .inr ⟨l, rfl, by simp [Client.timeOut, hwaiting]⟩

theorem Tracks.hangUp {s : Service} {i : Nat} (h : Tracks s i) :
    Tracks (s.act i Client.hangUp) i :=
  h.fail fun _ l => .inr ⟨l.close, rfl, rfl⟩

end TopicDirectory.Service
