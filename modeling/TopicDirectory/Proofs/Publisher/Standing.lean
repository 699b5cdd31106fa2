import TopicDirectory.Proofs.Publisher.Filing
import TopicDirectory.Proofs.Publisher.Moves

/-!
# Where a publisher and the directory stand

A publisher keeps the record with which it is registered, and the directory keeps one under the
publisher's id.  While nobody else names the id, the two are the same until an exchange for other
topics fails (`Standing.current`).  The publisher then keeps the topics that it had, whatever has
become of its request, and does not use the connection any more; from then on the directory holds the
same record, or that with the topics of the update that has failed if it has dealt with it
(`Standing.behind`).

The invariant is about the connection that the publisher is using (`Sound`).  The moves of the others
keep it because they keep what the directory holds and what is ahead; those of the publisher are
treated stage by stage.
-/

namespace TopicDirectory

open Client (Call Publisher Session)
open Service (Framed Grows Holds Ledger Registering Sane Updating)

/-- The record of a publisher that is registered. -/
def Client.Publisher.recordOf (p : Publisher) (s : Session) : Record :=
  ⟨some s.id, s.address, p.name, p.topics⟩

theorem Client.Publisher.record?_eq {p : Publisher} {s : Session} (h : p.stage = .registered s) :
    p.record? = some (p.recordOf s) := by
  rw [record?, session?_eq_some.2 h]
  rfl

theorem Client.Publisher.setTopics_done {p : Publisher} {s : Session}
    (h : p.stage = .registered s) (topics : List String) :
    p.setTopics topics (.ok .done) = (.ok (), { p with topics }) := by
  unfold setTopics
  rw [session?_eq_some.2 h]

theorem Client.Publisher.setTopics_refused {p : Publisher} {s : Session}
    (h : p.stage = .registered s) (topics : List String) (r : Wire.Refusal) :
    p.setTopics topics (.ok (.refused r)) = (.error (.topicsRefused s.id), p) := by
  unfold setTopics
  rw [session?_eq_some.2 h]

namespace Enrolment

/-! ## Stages -/

/-- What the directory holds for a publisher at a stage, and what is on the publisher's connection. -/
inductive Standing (s : Service) (p : Publisher) (failed? : Option (List String)) : Stage → Prop
  | away : Standing s p failed? .away
  | dialled {i : Nat} {address : String} {c : Service.Client} (hp : p.registerFault? = none)
    (hfailed : failed? = none) (hok : c.caller.broken = false) (hidle : c.waiting = false)
    (h : Ledger s i c [] []) : Standing s p failed? (.dialled i address)
  | registering {i : Nat} {address : String} {c : Service.Client} (hp : p.registerFault? = none)
    (hfailed : failed? = none) (hok : c.caller.broken = false) (hwaiting : c.waiting = true)
    (h : Registering s i c (p.candidate address)) : Standing s p failed? (.registering i address)
  /-- No exchange has failed, and the directory holds what the publisher says. -/
  | current {i : Nat} {session : Session} {c : Service.Client}
    {done : List (List UInt8 × List UInt8)} (hp : p.stage = .registered session)
    (hfailed : failed? = none) (hok : c.caller.broken = false) (hidle : c.waiting = false)
    (h : Ledger s i c done []) (hholds : Holds s i session.id (p.recordOf session)) :
    Standing s p failed? (.registered i)
  /-- An exchange has failed, and nobody knows whether its update has been made. -/
  | behind {i : Nat} {session : Session} {c : Service.Client} {topics : List String}
    (hp : p.stage = .registered session) (hfailed : failed? = some topics)
    (hbroken : c.caller.broken = true)
    (h : Updating s i c session.id (p.recordOf session) topics) :
    Standing s p failed? (.registered i)
  | updating {i : Nat} {session : Session} {c : Service.Client} {topics : List String}
    (hp : p.stage = .registered session) (hfailed : failed? = none)
    (hok : c.caller.broken = false) (hwaiting : c.waiting = true)
    (h : Updating s i c session.id (p.recordOf session) topics) :
    Standing s p failed? (.updating i session.id topics)
  | removing {i : Nat} {id : UInt32} : Standing s p failed? (.removing i id)

/-- A directory in which the publisher stands as it should, if the frames on its connection can be
read again. -/
structure Sound (e : Enrolment) : Prop where
  sane : Sane e.service
  standing : ∀ i, e.stage.client? = some i → Framed e.service i →
    Standing e.service e.publisher e.failed? e.stage

variable {e : Enrolment} {s : Service} {p : Publisher} {failed? : Option (List String)}
  {stage : Stage}

theorem Sound.of_away (hs : Sane e.service) (hstage : e.stage = .away) : Sound e := by
  refine ⟨hs, fun _ _ _ => ?_⟩
  rw [hstage]
  exact .away

/-! ## The others -/

theorem actor?_ne_of_owns {m : Service.Move} {i : Nat} (h : stage.owns m = false)
    (hi : stage.client? = some i) : m.actor? ≠ some i := by
  intro hm
  cases m <;> simp_all [Stage.owns, Service.Move.actor?]

/-- The others leave a publisher where it stands. -/
theorem Standing.step (h : Standing s p failed? stage) (hs : Sane s)
    (hframed : ∀ i, stage.client? = some i → Framed s i) {m : Service.Move}
    (hm : stage.owns m = false) : Standing (s.step m) p failed? stage := by
  cases h with
  | away => exact .away
  | dialled hp hfailed hok hidle h =>
    have hnext := h.step hs (hframed _ rfl) (actor?_ne_of_owns hm rfl)
    cases hnext with
    | nothing h => exact .dialled hp hfailed hok hidle h
    | other h => exact .dialled hp hfailed hok hidle h
  | registering hp hfailed hok hwaiting h =>
    exact .registering hp hfailed hok hwaiting
      (h.step hs (hframed _ rfl) (actor?_ne_of_owns hm rfl))
  | current hp hfailed hok hidle h hholds =>
    obtain ⟨hnext, hholds⟩ := hholds.passes hs (s.grows_step m)
      (h.step hs (hframed _ rfl) (actor?_ne_of_owns hm rfl))
    exact .current hp hfailed hok hidle hnext hholds
  | behind hp hfailed hbroken h =>
    exact .behind hp hfailed hbroken (h.step hs (hframed _ rfl) (actor?_ne_of_owns hm rfl))
  | updating hp hfailed hok hwaiting h =>
    exact .updating hp hfailed hok hwaiting
      (h.step hs (hframed _ rfl) (actor?_ne_of_owns hm rfl))
  | removing => exact .removing

theorem Sound.others (h : Sound e) {m : Service.Move} (hm : e.stage.owns m = false) :
    Sound { e with service := e.service.step m } := by
  refine ⟨h.sane.step m, fun i hi hframed => ?_⟩
  have hbefore : Framed e.service i := hframed.of_grows (e.service.grows_step m)
  refine (h.standing i hi hbefore).step h.sane (fun j hj => ?_) hm
  obtain rfl := Option.some.inj (hi.symm.trans hj)
  exact hbefore

/-! ## How calls end -/

theorem conclude_updating {i : Nat} {id : UInt32} {topics : List String}
    (hstage : e.stage = .updating i id topics) (outcome : Except Link.Fault (List UInt8)) :
    e.conclude outcome = { e with
      publisher := (e.publisher.setTopics topics ((Call.setTopics id topics).result outcome)).2
      stage := .registered i
      failed? := if ((Call.setTopics id topics).result outcome).isOk then e.failed?
        else e.failed?.or (some topics) } := by
  rw [conclude, hstage]

/-- An update whose exchange fails leaves the publisher as it was. -/
theorem conclude_updating_error {i : Nat} {id : UInt32} {topics : List String}
    (hstage : e.stage = .updating i id topics) (fault : Link.Fault) :
    e.conclude (.error fault) =
      { e with stage := .registered i, failed? := e.failed?.or (some topics) } := by
  rw [conclude_updating hstage]
  rcases e.publisher.setTopics_cases topics ((Call.setTopics id topics).result (.error fault)) with
    ⟨error, heq⟩ | ⟨-, hresult, -⟩
  · rw [heq]
    rfl
  · cases hresult

/-- Whatever a deregistration comes to, the publisher has no connection after it. -/
theorem Sound.conclude_removing {i : Nat} {id : UInt32} (hs : Sane e.service)
    (hstage : e.stage = .removing i id) (outcome : Except Link.Fault (List UInt8)) :
    Sound (e.conclude outcome) := by
  have hconclude : e.conclude outcome = { e with
      service := e.service.step (.hangUp i)
      publisher := (e.publisher.deregister ((Call.deregister id).result outcome)).2
      stage := .away } := by
    rw [conclude, hstage]
  rw [hconclude]
  exact .of_away (hs.step (.hangUp i)) rfl

/-- A registration fails, and the publisher has no connection after it, or it is the directory that
has given the id. -/
theorem Sound.conclude_registering {i : Nat} {address : String}
    {outcome : Except Link.Fault (List UInt8)} (hs : Sane e.service)
    (hstage : e.stage = .registering i address)
    (h : ∀ id, (Call.register (e.publisher.candidate address)).result outcome
        = .ok (.registered id) → Framed e.service i → ∃ done c, e.failed? = none ∧
      c.caller.broken = false ∧ c.waiting = false ∧ Ledger e.service i c done [] ∧
      Holds e.service i id { e.publisher.candidate address with id := some id }) :
    Sound (e.conclude outcome) := by
  rcases e.publisher.register_cases address
    ((Call.register (e.publisher.candidate address)).result outcome) with
    ⟨error, heq⟩ | ⟨id, -, hresult, heq⟩
  · have hconclude : e.conclude outcome = { e with
        service := e.service.step (.hangUp i), stage := .away } := by
      simp only [conclude, hstage, heq]
    rw [hconclude]
    exact .of_away (hs.step (.hangUp i)) rfl
  · have hconclude : e.conclude outcome = { e with
        publisher := { e.publisher with stage := .registered ⟨id, address⟩ }
        stage := .registered i } := by
      simp only [conclude, hstage, heq]
    rw [hconclude]
    refine ⟨hs, fun j hj hframed => ?_⟩
    obtain rfl : i = j := Option.some.inj hj
    obtain ⟨done, c, hfailed, hok, hidle, hledger, hholds⟩ := h id hresult hframed
    have hp : ({ e.publisher with stage := .registered ⟨id, address⟩ } : Publisher).stage
        = .registered ⟨id, address⟩ := rfl
    exact .current hp hfailed hok hidle hledger hholds

/-- An update that was answered: whatever the answer, publisher and directory hold the same. -/
theorem Sound.conclude_updating {i : Nat} {id : UInt32} {topics : List String}
    {octets : List UInt8} (hs : Sane e.service) (hstage : e.stage = .updating i id topics)
    (h : Framed e.service i → ∃ session reply done c, e.publisher.stage = .registered session ∧
      session.id = id ∧ e.failed? = none ∧ c.caller.broken = false ∧ c.waiting = false ∧
      (Call.setTopics id topics).result (.ok octets) = .ok reply ∧
      Ledger e.service i c done [] ∧ (e.service.Alone i id → reply = .done) ∧
      Holds e.service i id { e.publisher.recordOf session with topics }) :
    Sound (e.conclude (.ok octets)) := by
  rw [Enrolment.conclude_updating hstage]
  refine ⟨hs, fun j hj hframed => ?_⟩
  obtain rfl : i = j := Option.some.inj hj
  obtain ⟨session, reply, done, c, hp, rfl, hfailed, hok, hidle, hresult, hledger, hreply,
    hholds⟩ := h hframed
  rw [hresult]
  cases reply with
  | done =>
    rw [Publisher.setTopics_done hp]
    exact .current hp hfailed hok hidle hledger hholds
  | refused r =>
    -- the directory holds no such id, so somebody else has named it
    rw [Publisher.setTopics_refused hp]
    refine .current hp hfailed hok hidle hledger fun halone => ?_
    cases hreply halone

theorem Sound.conclude_updating_error {i : Nat} {id : UInt32} {topics : List String}
    (hs : Sane e.service) (hstage : e.stage = .updating i id topics) (fault : Link.Fault)
    (h : Framed e.service i →
      Standing e.service e.publisher (e.failed?.or (some topics)) (.registered i)) :
    Sound (e.conclude (.error fault)) := by
  rw [Enrolment.conclude_updating_error hstage]
  refine ⟨hs, fun j hj hframed => ?_⟩
  obtain rfl : i = j := Option.some.inj hj
  exact h hframed

/-! ## How calls begin -/

/-- What making a call can come to. -/
inductive Calls (e : Enrolment) (i : Nat) (stage : Stage) (request : List UInt8) : Enrolment → Prop
  /-- There is no such connection. -/
  | nowhere : Calls e i stage request e
  /-- The caller has failed before, and the directory does not see anything of the call. -/
  | refused {c : Service.Client} (hc : e.service.clients[i]? = some c)
    (hbroken : c.caller.broken = true) :
    Calls e i stage request ({ e with stage }.conclude (.error .closed))
  /-- The request is not written, and the call fails. -/
  | failed {c : Service.Client} {q : Exchange.Peer} {fault : Link.Fault}
    (hc : e.service.clients[i]? = some c) (hq : e.service.server.host.peers[i]? = some q)
    (hok : c.caller.broken = false) (hpost : (c.caller.post q.link request).1 = .error fault) :
    Calls e i stage request
      ({ e with service := e.service.step (.issue i request), stage }.conclude (.error fault))
  /-- The request is written. -/
  | posted {c : Service.Client} {q : Exchange.Peer} (hc : e.service.clients[i]? = some c)
    (hq : e.service.server.host.peers[i]? = some q) (hok : c.caller.broken = false)
    (hpost : (c.caller.post q.link request).1 = .ok ()) :
    Calls e i stage request { e with service := e.service.step (.issue i request), stage }

theorem calls_call (e : Enrolment) (i : Nat) (stage : Stage) (request : List UInt8) :
    Calls e i stage request (e.call i stage request) := by
  rw [call]
  split
  · rename_i c q hc hq
    cases hbroken : c.caller.broken with
    | true =>
      rw [Exchange.Caller.post_of_broken hbroken]
      exact .refused hc hbroken
    | false =>
      cases hpost : (c.caller.post q.link request).1 with
      | ok => exact .posted hc hq hbroken hpost
      | error fault => exact .failed hc hq hbroken hpost
  · exact .nowhere

variable {i : Nat} {c : Service.Client} {q : Exchange.Peer} {request : List UInt8}
  {done : List (List UInt8 × List UInt8)}

theorem registry_issue (s : Service) (i : Nat) (request : List UInt8) :
    (s.step (.issue i request)).registry = s.registry :=
  (s.moves_step (.issue i request)).registry nofun

/-- A request that was written is ahead, and the caller waits for the answer. -/
theorem ledger_posted (hs : Sane s) (h : Ledger s i c done [])
    (hq : s.server.host.peers[i]? = some q) (hidle : c.waiting = false)
    (hpost : (c.caller.post q.link request).1 = .ok ())
    (hframed : Framed (s.step (.issue i request)) i) :
    Ledger (s.step (.issue i request)) i ⟨c.caller, true⟩ done [request] := by
  have hnext := h.issue (q := request) hq hidle (hframed.sound hs h.client hidle)
  rcases c.caller.post_cases q.link request with ⟨fault, heq⟩ | ⟨-, -, -, heq⟩
  · rw [heq] at hpost
    cases hpost
  · rw [heq] at hnext
    exact hnext

/-- A request that could not be written is not dealt with, and the caller has failed. -/
theorem ledger_failed {fault : Link.Fault} (hs : Sane s) (h : Ledger s i c done [])
    (hq : s.server.host.peers[i]? = some q) (hidle : c.waiting = false)
    (hpost : (c.caller.post q.link request).1 = .error fault)
    (hframed : Framed (s.step (.issue i request)) i) :
    Ledger (s.step (.issue i request)) i ⟨c.caller.fail, false⟩ done [request] := by
  have hnext := h.issue (q := request) hq hidle (hframed.sound hs h.client hidle)
  rcases c.caller.post_cases q.link request with ⟨fault, heq⟩ | ⟨-, -, -, heq⟩
  · rw [heq] at hnext
    exact hnext
  · rw [heq] at hpost
    cases hpost

/-- An update that a caller refuses that has failed before. -/
theorem Standing.refused (h : Standing s p failed? (.registered i))
    (hc : s.clients[i]? = some c) (hbroken : c.caller.broken = true) (topics : List String) :
    Standing s p (failed?.or (some topics)) (.registered i) := by
  cases h with
  | current _ _ hok _ hledger =>
    obtain rfl := Option.some.inj (hledger.client.symm.trans hc)
    rw [hok] at hbroken
    cases hbroken
  | behind hp hfailed hbroken' hupdating =>
    rw [hfailed]
    exact .behind hp rfl hbroken' hupdating

/-- A publisher whose caller has not failed is up to date. -/
theorem Standing.exists_current (h : Standing s p failed? (.registered i))
    (hc : s.clients[i]? = some c) (hok : c.caller.broken = false) :
    ∃ session done, p.stage = .registered session ∧ failed? = none ∧ c.waiting = false ∧
      Ledger s i c done [] ∧ Holds s i session.id (p.recordOf session) := by
  cases h with
  | current hp hfailed _ hidle hledger hholds =>
    obtain rfl := Option.some.inj (hledger.client.symm.trans hc)
    exact ⟨_, _, hp, hfailed, hidle, hledger, hholds⟩
  | behind _ _ hbroken hupdating =>
    obtain rfl := Option.some.inj (hupdating.client.symm.trans hc)
    rw [hok] at hbroken
    cases hbroken

/-- An update whose request is not written. -/
theorem Standing.failed {fault : Link.Fault} {id : UInt32} {topics : List String} (hs : Sane s)
    (h : Standing s p failed? (.registered i)) (hid : p.id? = some id)
    (hc : s.clients[i]? = some c) (hq : s.server.host.peers[i]? = some q)
    (hok : c.caller.broken = false)
    (hpost : (c.caller.post q.link (Call.setTopics id topics).request).1 = .error fault)
    (hframed : Framed (s.step (.issue i (Call.setTopics id topics).request)) i) :
    Standing (s.step (.issue i (Call.setTopics id topics).request)) p (failed?.or (some topics))
      (.registered i) := by
  obtain ⟨session, done, hp, rfl, hidle, hledger, hholds⟩ := h.exists_current hc hok
  obtain ⟨session', hp', rfl⟩ := Publisher.id?_eq_some.1 hid
  obtain rfl := Client.Stage.registered.inj (hp.symm.trans hp')
  refine .behind hp rfl rfl (.ahead (ledger_failed hs hledger hq hidle hpost hframed) ?_)
  exact hholds.of_registry (s.grows_step _) (registry_issue s i _)

/-- An update whose request is written. -/
theorem Standing.posted {id : UInt32} {topics : List String} (hs : Sane s)
    (h : Standing s p failed? (.registered i)) (hid : p.id? = some id)
    (hc : s.clients[i]? = some c) (hq : s.server.host.peers[i]? = some q)
    (hok : c.caller.broken = false)
    (hpost : (c.caller.post q.link (Call.setTopics id topics).request).1 = .ok ())
    (hframed : Framed (s.step (.issue i (Call.setTopics id topics).request)) i) :
    Standing (s.step (.issue i (Call.setTopics id topics).request)) p failed?
      (.updating i id topics) := by
  obtain ⟨session, done, hp, rfl, hidle, hledger, hholds⟩ := h.exists_current hc hok
  obtain ⟨session', hp', rfl⟩ := Publisher.id?_eq_some.1 hid
  obtain rfl := Client.Stage.registered.inj (hp.symm.trans hp')
  refine .updating (c := ⟨_, true⟩) hp rfl hok rfl
    (.ahead (ledger_posted hs hledger hq hidle hpost hframed) ?_)
  exact hholds.of_registry (s.grows_step _) (registry_issue s i _)

theorem Sound.dial (h : Sound e) (address : String) : Sound (e.dial address) := by
  rw [Enrolment.dial]
  split
  · rename_i hstage hfault
    refine ⟨h.sane.step (.join _), fun i hi _ => ?_⟩
    obtain rfl : e.service.clients.length = i := Option.some.inj hi
    exact .dialled hfault rfl rfl rfl (Service.ledger_join h.sane _)
  · exact h

/-- What is known at a stage with a connection whose frames can be read. -/
theorem Sound.at_stage (h : Sound e) (hstage : e.stage = stage) (hi : stage.client? = some i)
    (hframed : Framed e.service i) : Standing e.service e.publisher e.failed? stage := by
  subst hstage
  exact h.standing i hi hframed

theorem Sound.ask (h : Sound e) : Sound e.ask := by
  rw [Enrolment.ask]
  split
  · rename_i i address hstage
    have hcalls := calls_call e i (.registering i address)
      (Call.register (e.publisher.candidate address)).request
    generalize e.call i (.registering i address) _ = e' at hcalls ⊢
    cases hcalls with
    | nowhere => exact h
    | refused =>
      apply Sound.conclude_registering
      · exact h.sane
      · rfl
      · nofun
    | failed =>
      apply Sound.conclude_registering
      · exact h.sane.step (.issue i _)
      · rfl
      · nofun
    | posted hc hq hok hpost =>
      refine ⟨h.sane.step (.issue i _), fun j hj hframed => ?_⟩
      obtain rfl : i = j := Option.some.inj hj
      have hbefore := Framed.of_grows hframed (e.service.grows_step (.issue i _))
      cases h.at_stage hstage rfl hbefore with
      | dialled hp hfailed _ hidle hledger =>
        obtain rfl := Option.some.inj (hledger.client.symm.trans hc)
        exact .registering (c := ⟨_, true⟩) hp hfailed hok rfl
          (.ahead (ledger_posted h.sane hledger hq hidle hpost hframed))
  · exact h

theorem Sound.remove (h : Sound e) : Sound e.remove := by
  rw [Enrolment.remove]
  split
  · rename_i i id hstage hid
    have hcalls := calls_call e i (.removing i id) (Call.deregister id).request
    generalize e.call i (.removing i id) _ = e' at hcalls ⊢
    cases hcalls with
    | nowhere => exact h
    | refused =>
      apply Sound.conclude_removing
      · exact h.sane
      · rfl
    | failed =>
      apply Sound.conclude_removing
      · exact h.sane.step (.issue i _)
      · rfl
    | posted => exact ⟨h.sane.step (.issue i _), fun _ _ _ => .removing⟩
  · exact h

theorem Sound.update (h : Sound e) (topics : List String) : Sound (e.update topics) := by
  rw [Enrolment.update]
  split
  · rename_i i id hstage hid
    have hgrows := e.service.grows_step (.issue i (Call.setTopics id topics).request)
    have hcalls := calls_call e i (.updating i id topics) (Call.setTopics id topics).request
    generalize e.call i (.updating i id topics) _ = e' at hcalls ⊢
    cases hcalls with
    | nowhere => exact h
    | refused hc hbroken =>
      apply Sound.conclude_updating_error
      · exact h.sane
      · rfl
      · intro hframed
        exact (h.at_stage hstage rfl hframed).refused hc hbroken topics
    | failed hc hq hok hpost =>
      apply Sound.conclude_updating_error
      · exact h.sane.step (.issue i _)
      · rfl
      · intro hframed
        have hstanding := h.at_stage hstage rfl (Framed.of_grows hframed hgrows)
        exact hstanding.failed h.sane hid hc hq hok hpost hframed
    | posted hc hq hok hpost =>
      refine ⟨h.sane.step (.issue i _), fun j hj hframed => ?_⟩
      obtain rfl : i = j := Option.some.inj hj
      have hstanding := h.at_stage hstage rfl (Framed.of_grows hframed hgrows)
      exact hstanding.posted h.sane hid hc hq hok hpost hframed
  · exact h

/-! ## How answers are taken -/

theorem answer?_eq_some {outcome : Except Link.Fault (List UInt8)}
    (h : e.answer? i = some outcome) :
    ∃ c q, e.service.clients[i]? = some c ∧ e.service.server.host.peers[i]? = some q ∧
      c.waiting = true ∧ (c.caller.collect q.link).1 = outcome := by
  rw [answer?] at h
  split at h
  · rename_i c q hc hq
    split at h
    · rename_i hwaiting
      exact ⟨c, q, hc, hq, hwaiting, Option.some.inj h⟩
    · cases h
  · cases h

/-- An update whose exchange has failed is where it was, and the caller has failed. -/
theorem Standing.fail {s' : Service} {id : UInt32} {topics : List String}
    (h : Standing s p failed? (.updating i id topics)) (hs : Grows s s')
    (hregistry : s'.registry = s.registry)
    (hledger : ∀ c done ahead, c.waiting = true → Ledger s i c done ahead →
      Ledger s' i ⟨c.caller.fail, false⟩ done ahead) :
    Standing s' p (failed?.or (some topics)) (.registered i) := by
  cases h with
  | updating hp hfailed _ hwaiting h =>
    refine .behind hp ?_ ?_ (h.map hs hregistry fun done ahead => hledger _ done ahead hwaiting)
    · rw [hfailed]
      rfl
    · rfl

theorem Sound.collect (h : Sound e) (hwaits : e.stage.waits? = some i)
    (hc : e.service.clients[i]? = some c) (hq : e.service.server.host.peers[i]? = some q)
    (hwaiting : c.waiting = true) :
    Sound ({ e with service := e.service.step (.collect i) }.conclude
      (c.caller.collect q.link).1) := by
  have hsane := h.sane.step (.collect i)
  have hgrows := e.service.grows_step (.collect i)
  have hregistry : (e.service.step (.collect i)).registry = e.service.registry :=
    (e.service.moves_step (.collect i)).registry nofun
  cases hstage : e.stage with
  | registering j address =>
    rw [hstage] at hwaits
    obtain rfl : j = i := Option.some.inj hwaits
    apply Sound.conclude_registering
    · exact hsane
    · rfl
    · intro id hresult hframed
      cases h.at_stage hstage rfl (Framed.of_grows hframed hgrows) with
      | registering hp hfailed hok _ hregistering =>
        obtain rfl := Option.some.inj (hc.symm.trans hregistering.client)
        cases houtcome : (c.caller.collect q.link).1 with
        | error fault =>
          rw [houtcome] at hresult
          cases hresult
        | ok octets =>
          obtain ⟨reply, done, hreply, hledger, hholds⟩ :=
            hregistering.collect hq hwaiting houtcome
          rw [houtcome] at hresult
          obtain rfl := Except.ok.inj (hreply.symm.trans hresult)
          exact ⟨done, ⟨c.caller, false⟩, hfailed, hok, rfl, hledger, hholds id rfl⟩
  | updating j id topics =>
    rw [hstage] at hwaits
    obtain rfl : j = i := Option.some.inj hwaits
    cases houtcome : (c.caller.collect q.link).1 with
    | error fault =>
      apply Sound.conclude_updating_error
      · exact hsane
      · rfl
      · intro hframed
        have hstanding := h.at_stage hstage rfl (Framed.of_grows hframed hgrows)
        refine hstanding.fail hgrows hregistry fun d done ahead _ hledger => ?_
        obtain rfl := Option.some.inj (hledger.client.symm.trans hc)
        exact hledger.collect_error hq hwaiting houtcome
    | ok octets =>
      apply Sound.conclude_updating
      · exact hsane
      · rfl
      · intro hframed
        cases h.at_stage hstage rfl (Framed.of_grows hframed hgrows) with
        | @updating _ session _ _ hp hfailed hok _ hupdating =>
          obtain rfl := Option.some.inj (hc.symm.trans hupdating.client)
          obtain ⟨reply, done, hreply, hledger, hdone, hholds⟩ :=
            hupdating.collect hq hwaiting houtcome
          exact ⟨session, reply, done, ⟨c.caller, false⟩, hp, rfl, hfailed, hok, rfl, hreply,
            hledger, hdone, hholds⟩
  | removing j id =>
    apply Sound.conclude_removing
    · exact hsane
    · rfl
  | _ =>
    rw [hstage] at hwaits
    cases hwaits

theorem Sound.finish (h : Sound e) : Sound e.finish := by
  rw [Enrolment.finish]
  split
  · rename_i i hwaits
    split
    · rename_i outcome hanswer
      obtain ⟨c, q, hc, hq, hwaiting, rfl⟩ := answer?_eq_some hanswer
      exact h.collect hwaits hc hq hwaiting
    · exact h
  · exact h

theorem Sound.giveUp (h : Sound e) : Sound e.giveUp := by
  rw [Enrolment.giveUp]
  split
  · rename_i i hwaits
    have hsane := h.sane.step (.timeOut i)
    cases hstage : e.stage with
    | registering j address =>
      apply Sound.conclude_registering
      · exact hsane
      · rfl
      · nofun
    | updating j id topics =>
      rw [hstage] at hwaits
      obtain rfl : j = i := Option.some.inj hwaits
      have hgrows := e.service.grows_step (.timeOut j)
      apply Sound.conclude_updating_error
      · exact hsane
      · rfl
      · intro hframed
        have hstanding := h.at_stage hstage rfl (Framed.of_grows hframed hgrows)
        refine hstanding.fail hgrows ((e.service.moves_step (.timeOut j)).registry nofun) ?_
        intro c done ahead hwaiting hledger
        obtain ⟨q, hq⟩ := hledger.exists_peer h.sane
        exact hledger.timeOut hq hwaiting
    | removing j id =>
      apply Sound.conclude_removing
      · exact hsane
      · rfl
    | _ =>
      rw [hstage] at hwaits
      cases hwaits
  · exact h

/-! ## Runs -/

theorem Sound.step (h : Sound e) (m : Move) : Sound (e.step m) := by
  cases m with
  | others m =>
    rw [Enrolment.step]
    split
    · exact h
    · rename_i hm
      exact h.others (eq_false_of_ne_true hm)
  | dial address => exact h.dial address
  | ask => exact h.ask
  | update topics => exact h.update topics
  | remove => exact h.remove
  | finish => exact h.finish
  | giveUp => exact h.giveUp

theorem Sound.run (h : Sound e) (ms : List Move) : Sound (e.run ms) := by
  induction ms generalizing e with
  | nil => exact h
  | cons m ms ih => exact ih (h.step m)

theorem sound_new (c : Config.Server) (config : Config.Client) (bindHost name : String)
    (topics : List String) : Sound (new c config bindHost name topics) :=
  .of_away (Service.sane_new c) rfl

end Enrolment

end TopicDirectory
