import TopicDirectory.Proofs.Directory.Dispatch
import TopicDirectory.Proofs.Reception.Basic
import TopicDirectory.Proofs.Service.Serving

/-!
# What every move keeps

Whatever is done next in a directory among its guests, its registry and its replies are those of one
run of the requests that were dealt with (`Sane`).
-/

namespace TopicDirectory.Reception

open Exchange (Action Desk Host Peer)
open Service (queued)

/-- A directory that has dealt with the requests in its log. -/
structure Sane (limit : Nat) (r : Reception) : Prop where
  limit : r.server.host.limit = limit
  listening : r.server.host.listening = true
  length : r.guests.length = r.server.host.peers.length
  known : ∀ d ∈ r.log, d.guest < r.guests.length
  inQueue : ∀ e ∈ r.server.host.queue, e.1 < r.guests.length
  registry : r.server.state.registry = Registry.fed {} (r.log.map (·.request))
  replies : r.log.map (·.reply) = Registry.replies {} (r.log.map (·.request))

theorem sane_new (c : Config.Server) : Sane c.messageSize.toNat (new c) :=
  ⟨rfl, rfl, rfl, nofun, nofun, rfl, rfl⟩

variable {limit : Nat} {r : Reception}

/-! ## The host -/

theorem Sane.host {i : Nat} {h' : Host} (h : Sane limit r) (hs : r.server.host.Serves i h') :
    Sane limit { r with server.host := h' } where
  limit := hs.limit.trans h.limit
  listening := hs.listening.trans h.listening
  length := h.length.trans hs.length_peers.symm
  known := h.known
  inQueue e he := by
    show e.1 < r.guests.length
    rw [h.length]
    exact hs.lt_of_mem_queue he fun e he => h.length ▸ h.inQueue e he
  registry := h.registry
  replies := h.replies

/-! ## One step -/

/-- What can become of a directory in one step. -/
inductive Serves (r : Reception) : Reception → Prop
  | idle : Serves r r
  | accept {i : Nat} {h' : Host} (h : r.server.host.accept? i = some h') :
    Serves r { r with server.host := h' }
  | read {i : Nat} {h' : Host} (h : r.server.host.read? i = some h') :
    Serves r { r with server.host := h' }
  | enqueue {i : Nat} {h' : Host} (h : r.server.host.enqueue? i = some h') :
    Serves r { r with server.host := h' }
  | write {i : Nat} {h' : Host} (h : r.server.host.write? i = some h') :
    Serves r { r with server.host := h' }
  | dispatch {d : Deal} {rest : List (Nat × List UInt8)}
    (hqueue : r.server.host.queue = (d.guest, d.request) :: rest)
    (hreply : d.reply = (Directory.dispatch r.server.state.registry d.request).reply.encode) :
    Serves r
      { r with
        server :=
          { host := { r.server.host with queue := rest }.hand d.guest (.reply d.reply)
            state := (Directory.respond r.server.state d.request).2 }
        log := r.log ++ [d] }

theorem serves_serve (r : Reception) (a : Action) : Serves r (r.serve a) := by
  rw [serve]
  cases hstep : Desk.step? Directory.respond r.server a with
  | none => exact .idle
  | some server =>
    cases Desk.steps_step? hstep with
    | accept h =>
      rw [dealt_of_ne r.server (.accept _) nofun, List.append_nil]
      exact .accept h
    | read h =>
      rw [dealt_of_ne r.server (.read _) nofun, List.append_nil]
      exact .read h
    | enqueue h =>
      rw [dealt_of_ne r.server (.enqueue _) nofun, List.append_nil]
      exact .enqueue h
    | write h =>
      rw [dealt_of_ne r.server (.write _) nofun, List.append_nil]
      exact .write h
    | @dispatch i request host _ htake =>
      obtain ⟨hqueue, hhost⟩ := Host.take?_eq_some htake
      rw [dealt, hqueue, hhost]
      exact .dispatch (d := ⟨i, request, _⟩) hqueue rfl

/-! ## What every step keeps -/

theorem Sane.serves {r' : Reception} (h : Sane limit r) (hs : Serves r r') : Sane limit r' := by
  cases hs with
  | idle => exact h
  | accept hstep => exact h.host (Host.serves_accept? hstep)
  | read hstep => exact h.host (Host.serves_read? hstep)
  | enqueue hstep => exact h.host (Host.serves_enqueue? hstep)
  | write hstep => exact h.host (Host.serves_write? hstep)
  | @dispatch d rest hqueue hreply =>
    have hguest : d.guest < r.guests.length :=
      h.inQueue (d.guest, d.request) (hqueue ▸ List.mem_cons_self)
    refine ⟨?_, ?_, ?_, ?_, ?_, ?_, ?_⟩
    · rw [Host.limit_hand]
      exact h.limit
    · rw [Host.listening_hand]
      exact h.listening
    · rw [Host.length_peers_hand]
      exact h.length
    · intro e he
      rcases List.mem_append.1 he with he | he
      · exact h.known e he
      · rw [List.mem_singleton.1 he]
        exact hguest
    · intro e he
      rw [Host.queue_hand] at he
      exact h.inQueue e (hqueue ▸ List.mem_cons_of_mem _ he)
    · rw [List.map_append, List.map_singleton, Registry.fed_concat, ← h.registry,
        Directory.registry_respond]
    · rw [List.map_append, List.map_append, List.map_singleton, List.map_singleton,
        Registry.replies_concat, ← h.registry, ← h.replies, hreply]

theorem deals_concat (r : Reception) (server : Directory.Server) (d : Deal) (i : Nat) :
    deals { r with server, log := r.log ++ [d] } i
      = r.deals i ++ if d.guest = i then [d] else [] := by
  by_cases hi : d.guest = i <;> simp [deals, hi]

/-! ## What the guests do -/

theorem act_eq {i : Nat} {f : Guest → Link → Guest × Link} {g : Guest} {p : Peer}
    (hg : r.guests[i]? = some g) (hp : r.server.host.peers[i]? = some p) :
    r.act i f = { r with
      server.host := r.server.host.set i { p with link := (f g p.link).2 }
      guests := r.guests.set i (f g p.link).1 } := by
  simp only [act, hg, hp]

theorem act_of_none {i : Nat} {f : Guest → Link → Guest × Link}
    (h : r.guests[i]? = none ∨ r.server.host.peers[i]? = none) : r.act i f = r := by
  rw [act]
  split
  · simp_all
  · rfl

theorem Sane.act {i : Nat} (h : Sane limit r) (f : Guest → Link → Guest × Link) :
    Sane limit (r.act i f) := by
  cases hg : r.guests[i]? with
  | none =>
    rw [act_of_none (.inl hg)]
    exact h
  | some g =>
    cases hp : r.server.host.peers[i]? with
    | none =>
      rw [act_of_none (.inr hp)]
      exact h
    | some p =>
      rw [act_eq hg hp]
      refine ⟨h.limit, h.listening, ?_, ?_, ?_, h.registry, h.replies⟩
      · simp only [List.length_set, Host.set]
        exact h.length
      · intro d hd
        rw [List.length_set]
        exact h.known d hd
      · intro e he
        rw [List.length_set]
        exact h.inQueue e he

theorem Sane.call (h : Sane limit r) : Sane limit (r.step .call) where
  limit := h.limit
  listening := h.listening
  length := by
    show (r.guests ++ [_]).length = (r.server.host.peers ++ [_]).length
    rw [List.length_append, List.length_append, h.length]
    rfl
  known d hd := by
    show d.guest < (r.guests ++ [_]).length
    have hlt := h.known d hd
    rw [List.length_append]
    omega
  inQueue e he := by
    show e.1 < (r.guests ++ [_]).length
    have hlt := h.inQueue e he
    rw [List.length_append]
    omega
  registry := h.registry
  replies := h.replies

/-- Nothing can have come of a guest that is not there. -/
theorem Sane.nothing_of_le {i : Nat} (h : Sane limit r) (hi : r.guests.length ≤ i) :
    queued r.server.host i = [] ∧ r.deals i = [] := by
  constructor
  · refine List.filterMap_eq_nil_iff.2 fun e he => if_neg ?_
    exact Nat.ne_of_lt (Nat.lt_of_lt_of_le (h.inQueue e he) hi)
  · refine List.filter_eq_nil_iff.2 fun d hd => ?_
    have hlt := h.known d hd
    simp only [decide_eq_true_eq]
    omega

/-! ## All moves -/

theorem Sane.step (h : Sane limit r) (m : Move) : Sane limit (r.step m) := by
  cases m with
  | call => exact h.call
  | send i octets => exact h.act _
  | take i n => exact h.act _
  | stray i l => exact h.act _
  | serve a => exact h.serves (r.serves_serve a)
  | feed f => exact ⟨h.limit, h.listening, h.length, h.known, h.inQueue, h.registry, h.replies⟩

theorem Sane.run (h : Sane limit r) (ms : List Move) : Sane limit (r.run ms) := by
  induction ms generalizing r with
  | nil => exact h
  | cons m ms ih => exact ih (h.step m)

end TopicDirectory.Reception
