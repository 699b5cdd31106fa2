import Mathlib.Logic.Relation
import TopicDirectory.Proofs.Reception.Invariant

/-!
# What a move means for one guest

Of all that a directory does, a guest has to do only with its own connection, its requests in the
queue and what was dealt with of them (`Visit`).  A move leaves these as they are, or it is one of the
few things that the guest or the host can do (`Turn`).  So whatever is done in a directory, to a guest
it is a sequence of such turns (`visit_run`).
-/

namespace TopicDirectory.Reception

open Exchange (Action Host Peer)
open Relation (ReflTransGen)
open Service (queued queued_of_serves)

/-- A guest and its connection, its requests that are in the queue, and what was dealt with of them. -/
structure Visit where
  peer : Peer := {}
  guest : Guest := {}
  queued : List (List UInt8) := []
  done : List Deal := []
deriving DecidableEq

/-- The visit of the guest with a number. -/
def visit? (r : Reception) (i : Nat) : Option Visit :=
  match r.server.host.peers[i]?, r.guests[i]? with
  | some peer, some guest => some ⟨peer, guest, queued r.server.host i, r.deals i⟩
  | _, _ => none

/-- The peer that a reply was handed over to. -/
def answered (p : Peer) (reply : List UInt8) : Peer :=
  if p.phase = .waiting then { p with phase := .answering reply } else p

/-- What can become of a visit in one move. -/
inductive Turn (limit : Nat) (v : Visit) : Visit → Prop
  | stay : Turn limit v v
  | act (f : Guest → Link → Guest × Link)
    (hf : (∃ octets, f = Guest.send octets) ∨ (∃ n, f = Guest.take n) ∨ ∃ l, f = Guest.stray l) :
    Turn limit v
      { v with peer.link := (f v.guest v.peer.link).2, guest := (f v.guest v.peer.link).1 }
  | accept (hphase : v.peer.phase = .calling) : Turn limit v { v with peer.phase := .reading }
  | read {request : List UInt8} {rest : Pipe} (hphase : v.peer.phase = .reading)
    (hread : Frame.read limit v.peer.link.toHost = some (.ok (some request), rest)) :
    Turn limit v { v with peer := ⟨{ v.peer.link with toHost := rest }, .holding request⟩ }
  | refuse {result : Except Link.Fault (Option (List UInt8))} {rest : Pipe}
    (hphase : v.peer.phase = .reading)
    (hread : Frame.read limit v.peer.link.toHost = some (result, rest))
    (hresult : ∀ request, result ≠ .ok (some request)) :
    Turn limit v { v with peer := Peer.leave { v.peer with link.toHost := rest } }
  | enqueue {request : List UInt8} (hphase : v.peer.phase = .holding request) :
    Turn limit v { v with peer.phase := .waiting, queued := v.queued ++ [request] }
  | dispatch {d : Deal} {rest : List (List UInt8)} (hqueued : v.queued = d.request :: rest) :
    Turn limit v
      { v with peer := answered v.peer d.reply, queued := rest, done := v.done ++ [d] }
  | write {reply : List UInt8} (hphase : v.peer.phase = .answering reply)
    (hlimit : reply.length ≤ limit) :
    Turn limit v
      { v with
        peer :=
          ⟨{ v.peer.link with toGuest := v.peer.link.toGuest.write (Frame.encode reply) }, .reading⟩ }
  | giveUp {reply : List UInt8} (hphase : v.peer.phase = .answering reply)
    (hlimit : limit < reply.length) : Turn limit v { v with peer := v.peer.leave }

variable {limit : Nat} {r : Reception} {i : Nat} {v v' : Visit}

theorem visit?_eq_some : visit? r i = some v ↔
    r.server.host.peers[i]? = some v.peer ∧ r.guests[i]? = some v.guest ∧
      v.queued = queued r.server.host i ∧ v.done = r.deals i := by
  unfold visit?
  constructor
  · intro h
    split at h
    · rename_i peer guest hpeer hguest
      cases h
      exact ⟨hpeer, hguest, rfl, rfl⟩
    · cases h
  · rintro ⟨hpeer, hguest, hqueued, hdone⟩
    rw [hpeer, hguest, ← hqueued, ← hdone]

theorem Turn.steady (h : Turn limit v v') (hsteady : v'.guest.steady = true) :
    v.guest.steady = true := by
  cases h with
  | act f hf =>
    rcases hf with ⟨octets, rfl⟩ | ⟨n, rfl⟩ | ⟨l, rfl⟩
    · exact hsteady
    · exact hsteady
    · cases hsteady
  | _ => exact hsteady

/-- What was dealt with stays dealt with. -/
theorem Turn.done (h : Turn limit v v') : v.done <+: v'.done := by
  cases h with
  | dispatch => exact List.prefix_append _ _
  | _ => exact List.prefix_rfl

/-! ## The host -/

/-- What the host does on the connection of one guest is a turn for this one, and nothing for the
others. -/
theorem visit_set {j : Nat} {p q : Peer} (hv : visit? r i = some v)
    (hp : r.server.host.peers[j]? = some p)
    (hown : p = v.peer → Turn limit v { v with peer := q }) :
    ∃ v', visit? { r with server.host := r.server.host.set j q } i = some v' ∧ Turn limit v v' := by
  obtain ⟨hpeer, hguest, hqueued, hdone⟩ := visit?_eq_some.1 hv
  by_cases hij : j = i
  · subst hij
    exact ⟨{ v with peer := q },
      visit?_eq_some.2 ⟨Host.getElem?_set_self hpeer, hguest, hqueued, hdone⟩,
      hown (Option.some.inj (hp.symm.trans hpeer))⟩
  · exact ⟨v, visit?_eq_some.2 ⟨(List.getElem?_set_ne hij).trans hpeer, hguest, hqueued, hdone⟩,
      .stay⟩

theorem getElem?_hand_reply {h : Host} {p : Peer} (hp : h.peers[i]? = some p)
    (reply : List UInt8) : (h.hand i (.reply reply)).peers[i]? = some (answered p reply) := by
  unfold answered
  split
  · rename_i hphase
    rw [Host.hand_reply hp hphase]
    exact Host.getElem?_set_self hp
  · rename_i hphase
    rw [Host.hand, hp]
    dsimp only
    rw [if_neg hphase, hp]

/-- What the directory does is a turn for each guest. -/
theorem visit_serves {r' : Reception} (hsane : Sane limit r) (hv : visit? r i = some v)
    (hs : Serves r r') : ∃ v', visit? r' i = some v' ∧ Turn limit v v' := by
  obtain ⟨hpeer, hguest, hqueued, hdone⟩ := visit?_eq_some.1 hv
  cases hs with
  | idle => exact ⟨v, hv, .stay⟩
  | @accept j h' hstep =>
    obtain ⟨p, hp, hphase, rfl⟩ := Host.accept?_eq_some hstep
    refine visit_set hv hp ?_
    rintro rfl
    exact .accept hphase
  | @read j h' hstep =>
    obtain ⟨p, hp, hphase, hcases⟩ := Host.read?_eq_some hstep
    rw [hsane.limit] at hcases
    rcases hcases with ⟨request, rest, hread, rfl⟩ | ⟨result, rest, hread, hresult, rfl⟩
    · refine visit_set hv hp ?_
      rintro rfl
      exact .read hphase hread
    · refine visit_set hv hp ?_
      rintro rfl
      exact .refuse hphase hread hresult
  | @write j h' hstep =>
    obtain ⟨p, reply, hp, hphase, hcases⟩ := Host.write?_eq_some hstep
    rw [hsane.limit] at hcases
    rcases hcases with ⟨hlimit, rfl⟩ | ⟨hlimit, rfl⟩
    · refine visit_set hv hp ?_
      rintro rfl
      exact .write hphase hlimit
    · refine visit_set hv hp ?_
      rintro rfl
      exact .giveUp hphase hlimit
  | @enqueue j h' hstep =>
    have hothers := queued_of_serves (Host.serves_enqueue? hstep) (j := i)
    obtain ⟨p, request, hp, hphase, rfl⟩ := Host.enqueue?_eq_some hstep
    by_cases hij : j = i
    · subst hij
      obtain rfl := Option.some.inj (hp.symm.trans hpeer)
      refine ⟨{ v with peer.phase := .waiting, queued := v.queued ++ [request] },
        visit?_eq_some.2 ⟨Host.getElem?_set_self hpeer, hguest, ?_, hdone⟩, .enqueue hphase⟩
      simp [hqueued, queued]
    · exact ⟨v, visit?_eq_some.2 ⟨(List.getElem?_set_ne hij).trans hpeer, hguest,
        hqueued.trans (hothers hij).symm, hdone⟩, .stay⟩
  | @dispatch d rest hqueue hreply =>
    by_cases hi : d.guest = i
    · subst hi
      have hfront : v.queued
          = d.request :: queued { r.server.host with queue := rest } d.guest := by
        rw [hqueued]
        simp [queued, hqueue]
      refine ⟨{ v with
          peer := answered v.peer d.reply
          queued := queued { r.server.host with queue := rest } d.guest
          done := v.done ++ [d] },
        visit?_eq_some.2 ⟨?_, hguest, ?_, ?_⟩, .dispatch hfront⟩
      · exact getElem?_hand_reply (h := { r.server.host with queue := rest }) hpeer d.reply
      · simp only [queued, Host.queue_hand]
      · rw [deals_concat, if_pos rfl, ← hdone]
    · refine ⟨v, visit?_eq_some.2 ⟨?_, hguest, ?_, ?_⟩, .stay⟩
      · exact (Host.peers_hand_of_ne { r.server.host with queue := rest } _ hi).trans hpeer
      · rw [hqueued]
        simp only [queued, Host.queue_hand, hqueue, List.filterMap_cons, if_neg hi]
      · rw [deals_concat, if_neg hi, List.append_nil]
        exact hdone

/-! ## The guests -/

theorem visit_act_self {f : Guest → Link → Guest × Link} (hv : visit? r i = some v) :
    visit? (r.act i f) i
      = some { v with peer.link := (f v.guest v.peer.link).2, guest := (f v.guest v.peer.link).1 } := by
  obtain ⟨hpeer, hguest, hqueued, hdone⟩ := visit?_eq_some.1 hv
  obtain ⟨hlt, -⟩ := List.getElem?_eq_some_iff.1 hguest
  rw [act_eq hguest hpeer]
  exact visit?_eq_some.2 ⟨Host.getElem?_set_self hpeer, List.getElem?_set_self hlt, hqueued, hdone⟩

/-- What a guest does has nothing to do with the others. -/
theorem visit_act_of_ne {j : Nat} {f : Guest → Link → Guest × Link} (hv : visit? r i = some v)
    (hij : j ≠ i) : visit? (r.act j f) i = some v := by
  obtain ⟨hpeer, hguest, hqueued, hdone⟩ := visit?_eq_some.1 hv
  cases hg : r.guests[j]? with
  | none =>
    rw [act_of_none (.inl hg)]
    exact hv
  | some g =>
    cases hp : r.server.host.peers[j]? with
    | none =>
      rw [act_of_none (.inr hp)]
      exact hv
    | some p =>
      rw [act_eq hg hp]
      exact visit?_eq_some.2 ⟨(List.getElem?_set_ne hij).trans hpeer,
        (List.getElem?_set_ne hij).trans hguest, hqueued, hdone⟩

theorem visit_act {j : Nat} {f : Guest → Link → Guest × Link} (hv : visit? r i = some v)
    (hf : (∃ octets, f = Guest.send octets) ∨ (∃ n, f = Guest.take n) ∨ ∃ l, f = Guest.stray l) :
    ∃ v', visit? (r.act j f) i = some v' ∧ Turn limit v v' := by
  by_cases hij : j = i
  · subst hij
    exact ⟨_, visit_act_self hv, .act f hf⟩
  · exact ⟨v, visit_act_of_ne hv hij, .stay⟩

/-- Whoever calls is a further guest. -/
theorem visit_call (hv : visit? r i = some v) : visit? (r.step .call) i = some v := by
  obtain ⟨hpeer, hguest, hqueued, hdone⟩ := visit?_eq_some.1 hv
  obtain ⟨hpeers, -⟩ := List.getElem?_eq_some_iff.1 hpeer
  obtain ⟨hguests, -⟩ := List.getElem?_eq_some_iff.1 hguest
  exact visit?_eq_some.2 ⟨(List.getElem?_append_left hpeers).trans hpeer,
    (List.getElem?_append_left hguests).trans hguest, hqueued, hdone⟩

/-- A move is a turn for each guest. -/
theorem visit_step (hsane : Sane limit r) (hv : visit? r i = some v) (m : Move) :
    ∃ v', visit? (r.step m) i = some v' ∧ Turn limit v v' := by
  cases m with
  | call => exact ⟨v, visit_call hv, .stay⟩
  | send j octets => exact visit_act hv (.inl ⟨octets, rfl⟩)
  | take j n => exact visit_act hv (.inr (.inl ⟨n, rfl⟩))
  | stray j l => exact visit_act hv (.inr (.inr ⟨l, rfl⟩))
  | serve a => exact visit_serves hsane hv (r.serves_serve a)
  | feed f => exact ⟨v, hv, .stay⟩

/-! ## All moves -/

theorem visit?_eq_none (hsane : Sane limit r) (h : visit? r i = none) : r.guests.length ≤ i := by
  refine Nat.le_of_not_lt fun hi => ?_
  have hi' : i < r.server.host.peers.length := hsane.length ▸ hi
  have hsome : visit? r i
      = some ⟨r.server.host.peers[i], r.guests[i], queued r.server.host i, r.deals i⟩ :=
    visit?_eq_some.2 ⟨List.getElem?_eq_getElem hi', List.getElem?_eq_getElem hi, rfl, rfl⟩
  rw [h] at hsome
  cases hsome

theorem length_guests_act (r : Reception) (j : Nat) (f : Guest → Link → Guest × Link) :
    (r.act j f).guests.length = r.guests.length := by
  rw [act]
  split
  · exact List.length_set
  · rfl

theorem guests_serve (r : Reception) (a : Action) : (r.serve a).guests = r.guests := by
  rw [serve]
  split <;> rfl

/-- Only by a call there is a further guest, and nothing has come of it yet. -/
theorem visit_step_of_none (hsane : Sane limit r) (hnone : visit? r i = none) {m : Move}
    (hv : visit? (r.step m) i = some v) : v = {} := by
  have hi := visit?_eq_none hsane hnone
  obtain ⟨hpeer, hguest, hqueued, hdone⟩ := visit?_eq_some.1 hv
  have hnobody (h : (r.step m).guests.length = r.guests.length) : v = {} := by
    rw [List.getElem?_eq_none (h ▸ hi)] at hguest
    cases hguest
  cases m with
  | call =>
    have hpeers : (r.server.host.peers ++ [({} : Peer)])[i]? = some v.peer := hpeer
    have hguests : (r.guests ++ [({} : Guest)])[i]? = some v.guest := hguest
    obtain ⟨hqueue, hdeals⟩ := hsane.nothing_of_le hi
    rcases getElem?_concat_eq_some.1 hpeers with hp | ⟨-, hp⟩
    · rw [List.getElem?_eq_none (hsane.length ▸ hi)] at hp
      cases hp
    · rcases getElem?_concat_eq_some.1 hguests with hg | ⟨-, hg⟩
      · rw [List.getElem?_eq_none hi] at hg
        cases hg
      · obtain ⟨peer, guest, requests, done⟩ := v
        obtain rfl : requests = [] := hqueued.trans hqueue
        obtain rfl : done = [] := hdone.trans hdeals
        obtain rfl : {} = peer := hp
        obtain rfl : {} = guest := hg
        rfl
  | send j octets => exact hnobody (length_guests_act r j _)
  | take j n => exact hnobody (length_guests_act r j _)
  | stray j l => exact hnobody (length_guests_act r j _)
  | serve a => exact hnobody (congrArg List.length (guests_serve r a))
  | feed f => exact hnobody rfl

/-- Whatever is done, to a guest that is there it is turn after turn. -/
theorem visit_run (hsane : Sane limit r) (hv : visit? r i = some v) (ms : List Move) :
    ∃ v', visit? (r.run ms) i = some v' ∧ ReflTransGen (Turn limit) v v' := by
  induction ms generalizing r v with
  | nil => exact ⟨v, hv, .refl⟩
  | cons m ms ih =>
    obtain ⟨v₁, hv₁, hturn⟩ := visit_step hsane hv m
    obtain ⟨v', hv', hturns⟩ := ih (hsane.step m) hv₁
    exact ⟨v', hv', .head hturn hturns⟩

/-- So it is to a guest that comes later, from its call on. -/
theorem visit_run_of_none (hsane : Sane limit r) (hnone : visit? r i = none) (ms : List Move)
    (hv : visit? (r.run ms) i = some v) : ReflTransGen (Turn limit) {} v := by
  induction ms generalizing r with
  | nil =>
    rw [show r.run [] = r from rfl, hnone] at hv
    cases hv
  | cons m ms ih =>
    cases hstep : visit? (r.step m) i with
    | none => exact ih (hsane.step m) hstep hv
    | some v₁ =>
      obtain rfl := visit_step_of_none hsane hnone hstep
      obtain ⟨v', hv', hturns⟩ := visit_run (hsane.step m) hstep ms
      obtain rfl := Option.some.inj (hv'.symm.trans hv)
      exact hturns

/-- A guest that is steady at last has been so before. -/
theorem turns_steady (h : ReflTransGen (Turn limit) v v') (hsteady : v'.guest.steady = true) :
    v.guest.steady = true := by
  induction h with
  | refl => exact hsteady
  | tail _ hturn ih => exact ih (hturn.steady hsteady)

theorem turns_done (h : ReflTransGen (Turn limit) v v') : v.done <+: v'.done := by
  induction h with
  | refl => exact List.prefix_rfl
  | tail _ hturn ih => exact ih.trans hturn.done

/-- What every turn keeps of a steady guest whose requests are dealt with in some way, holds of it
after all turns. -/
theorem turns_keep {P : Visit → Prop} {Q : Deal → Prop} (hP : P v)
    (h : ReflTransGen (Turn limit) v v') (hsteady : v'.guest.steady = true)
    (hdone : ∀ d ∈ v'.done, Q d)
    (hturn : ∀ v v', P v → Turn limit v v' → v'.guest.steady = true → (∀ d ∈ v'.done, Q d) → P v') :
    P v' := by
  induction h with
  | refl => exact hP
  | tail _ hlast ih =>
    have hbefore := ih (hlast.steady hsteady) fun d hd => hdone d (hlast.done.subset hd)
    exact hturn _ _ hbefore hlast hsteady hdone

end TopicDirectory.Reception
