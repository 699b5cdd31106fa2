import TopicDirectory.Proofs.Directory.Naming
import TopicDirectory.Proofs.Publisher.Enrolment
import TopicDirectory.Proofs.Service.Ledger

/-!
# What the directory holds for a client

A record that the directory holds under an id stays as it is while nobody names the id (`Holds`).
A client that has asked for a registration or for an update has its request still ahead, or the
directory has dealt with it and holds what was asked for (`Registering`, `Updating`).  Every move
that is not the client's own keeps it so, and the answer that the client takes is the one that the
directory has given.
-/

namespace TopicDirectory

open Client (Call)
open Exchange (Peer)
open Wire (RegisterReply StatusReply)

/-- The reply to a registration is read again. -/
theorem result_register (candidate : Record) (reply : RegisterReply) :
    (Call.register candidate).result (.ok reply.toValue.encode) = .ok reply := by
  have hanswer : (Call.register candidate).answer reply.toValue.encode = .ok reply := by
    show (Wire.Value.decode reply.toValue.encode >>= RegisterReply.ofValue) = _
    rw [Wire.Value.decode_encode]
    exact RegisterReply.ofValue_toValue reply
  rw [Call.result]
  simp only [hanswer]

/-- The reply to an update is read again. -/
theorem result_setTopics (id : UInt32) (topics : List String) (reply : StatusReply) :
    (Call.setTopics id topics).result (.ok reply.toValue.encode) = .ok reply := by
  have hanswer : (Call.setTopics id topics).answer reply.toValue.encode = .ok reply := by
    show (Wire.Value.decode reply.toValue.encode >>= StatusReply.ofValue) = _
    rw [Wire.Value.decode_encode]
    exact StatusReply.ofValue_toValue reply
  rw [Call.result]
  simp only [hanswer]

namespace Service

/-- Whether nobody but a client has named an id in a request that was dealt with. -/
def Alone (s : Service) (i : Nat) (id : UInt32) : Prop :=
  ∀ q ∈ foreign s.log i, Directory.names id q = false

instance (s : Service) (i : Nat) (id : UInt32) : Decidable (s.Alone i id) :=
  inferInstanceAs (Decidable (∀ q ∈ foreign s.log i, _))

/-- What the directory holds under an id that nobody but a client has named. -/
def Holds (s : Service) (i : Nat) (id : UInt32) (r : Record) : Prop :=
  s.Alone i id → s.registry.get? id = some r

variable {s s' : Service} {i : Nat} {c d : Client} {p : Peer} {id : UInt32} {r : Record}
  {candidate : Record} {topics : List String}

theorem Alone.of_grows (h : Alone s' i id) (hs : Grows s s') : Alone s i id := fun q hq =>
  h q ((foreign_mono hs.log).subset hq)

theorem Sane.coherent (h : Sane s) : s.registry.Coherent := by
  show s.server.state.registry.Coherent
  rw [h.registry]
  exact Directory.coherent_fed Registry.coherent_new (requests s.log)

theorem Holds.of_registry (h : Holds s i id r) (hs : Grows s s')
    (hregistry : s'.registry = s.registry) : Holds s' i id r := by
  intro halone
  rw [hregistry]
  exact h (halone.of_grows hs)

theorem Holds.of_foreign {q : List UInt8} (h : Holds s i id r) (hsane : Sane s) (hs : Grows s s')
    (hq : q ∈ foreign s'.log i)
    (hregistry : s'.registry = (Directory.dispatch s.registry q).registry s.registry) :
    Holds s' i id r := by
  intro halone
  rw [hregistry]
  exact Directory.get?_dispatch hsane.coherent (h (halone.of_grows hs)) (halone q hq)

/-- What is held stays as it is if all requests of the client were dealt with. -/
theorem Holds.passes {done : List (List UInt8 × List UInt8)} (h : Holds s i id r) (hsane : Sane s)
    (hs : Grows s s') (hpasses : Passes s s' i c done []) :
    Ledger s' i c done [] ∧ Holds s' i id r := by
  cases hpasses with
  | nothing hledger hregistry => exact ⟨hledger, h.of_registry hs hregistry⟩
  | other hledger hq hregistry => exact ⟨hledger, h.of_foreign hsane hs hq hregistry⟩

/-! ## Registrations and updates -/

/-- A client that has asked for a registration, and for nothing else. -/
inductive Registering (s : Service) (i : Nat) (c : Client) (candidate : Record) : Prop
  | ahead (h : Ledger s i c [] [(Call.register candidate).request])
  | made {reply : RegisterReply}
    (h : Ledger s i c [((Call.register candidate).request, reply.toValue.encode)] [])
    (hholds : ∀ id, reply = .registered id → Holds s i id { candidate with id := some id })

/-- A client that has asked for an update of what is held. -/
inductive Updating (s : Service) (i : Nat) (c : Client) (id : UInt32) (r : Record)
    (topics : List String) : Prop
  | ahead {done : List (List UInt8 × List UInt8)}
    (h : Ledger s i c done [(Call.setTopics id topics).request]) (hholds : Holds s i id r)
  | made {done : List (List UInt8 × List UInt8)} {reply : StatusReply}
    (h : Ledger s i c (done ++ [((Call.setTopics id topics).request, reply.toValue.encode)]) [])
    (hreply : s.Alone i id → reply = .done) (hholds : Holds s i id { r with topics })

theorem Registering.client (h : Registering s i c candidate) : s.clients[i]? = some c := by
  cases h with
  | ahead h => exact h.client
  | made h => exact h.client

theorem Updating.client (h : Updating s i c id r topics) : s.clients[i]? = some c := by
  cases h with
  | ahead h => exact h.client
  | made h => exact h.client

theorem Registering.step (h : Registering s i c candidate) (hs : Sane s) (hframed : Framed s i)
    {m : Move} (hm : m.actor? ≠ some i) : Registering (s.step m) i c candidate := by
  have hgrows := s.grows_step m
  cases h with
  | ahead h =>
    cases h.step hs hframed hm with
    | nothing hledger => exact .ahead hledger
    | other hledger => exact .ahead hledger
    | own hledger hregistry =>
      obtain ⟨reply, hreply, hget⟩ := Directory.dispatch_register s.registry candidate
      rw [hreply] at hledger
      refine .made hledger fun id hid _ => ?_
      rw [hregistry]
      exact hget id hid
  | made h hholds =>
    have hpasses := h.step hs hframed hm
    cases hpasses with
    | nothing hledger hregistry =>
      exact .made hledger fun id hid => (hholds id hid).of_registry hgrows hregistry
    | other hledger hq hregistry =>
      exact .made hledger fun id hid => (hholds id hid).of_foreign hs hgrows hq hregistry

theorem Updating.step (h : Updating s i c id r topics) (hs : Sane s) (hframed : Framed s i)
    {m : Move} (hm : m.actor? ≠ some i) : Updating (s.step m) i c id r topics := by
  have hgrows := s.grows_step m
  cases h with
  | ahead h hholds =>
    cases h.step hs hframed hm with
    | nothing hledger hregistry => exact .ahead hledger (hholds.of_registry hgrows hregistry)
    | other hledger hq hregistry =>
      exact .ahead hledger (hholds.of_foreign hs hgrows hq hregistry)
    | own hledger hregistry =>
      obtain ⟨reply, hreply, hmade⟩ := Directory.dispatch_setTopics s.registry id topics
      rw [hreply] at hledger
      refine .made hledger ?_ ?_
      · intro halone
        exact (hmade r (hholds (halone.of_grows hgrows))).1
      · intro halone
        rw [hregistry]
        exact (hmade r (hholds (halone.of_grows hgrows))).2
  | made h hreply hholds =>
    obtain ⟨hledger, hholds⟩ := hholds.passes hs hgrows (h.step hs hframed hm)
    exact .made hledger (fun halone => hreply (halone.of_grows hgrows)) hholds

/-! ## What the client does -/

/-- What the client does without making a request changes nothing for those it has made. -/
theorem Updating.map (h : Updating s i c id r topics) (hs : Grows s s')
    (hregistry : s'.registry = s.registry)
    (hledger : ∀ done ahead, Ledger s i c done ahead → Ledger s' i d done ahead) :
    Updating s' i d id r topics := by
  cases h with
  | ahead h hholds => exact .ahead (hledger _ _ h) (hholds.of_registry hs hregistry)
  | made h hreply hholds =>
    exact .made (hledger _ _ h) (fun halone => hreply (halone.of_grows hs))
      (hholds.of_registry hs hregistry)

/-- The answer to a registration is the directory's. -/
theorem Registering.collect {octets : List UInt8} (h : Registering s i c candidate)
    (hp : s.server.host.peers[i]? = some p) (hwaiting : c.waiting = true)
    (hoctets : (c.caller.collect p.link).1 = .ok octets) :
    ∃ reply done, (Call.register candidate).result (.ok octets) = .ok reply ∧
      Ledger (s.step (.collect i)) i ⟨c.caller, false⟩ done [] ∧
      ∀ id, reply = .registered id →
        Holds (s.step (.collect i)) i id { candidate with id := some id } := by
  have hregistry : (s.step (.collect i)).registry = s.registry := (s.moves_step _).registry nofun
  cases h with
  | ahead h =>
    rcases h.collect hp hwaiting with ⟨fault, hfault, -⟩ | ⟨_, _, _, -, hahead, -⟩
    · rw [hfault] at hoctets
      cases hoctets
    · cases hahead
  | @made reply h hholds =>
    rcases h.collect hp hwaiting with
      ⟨fault, hfault, -⟩ | ⟨octets', past, request, hok, -, hdone, hnext⟩
    · rw [hfault] at hoctets
      cases hoctets
    · obtain rfl := Except.ok.inj (hok.symm.trans hoctets)
      obtain ⟨-, hlast⟩ := List.append_inj' (hdone.symm.trans (List.nil_append _).symm) rfl
      obtain ⟨-, rfl⟩ := Prod.mk.inj (List.singleton_inj.1 hlast)
      exact ⟨reply, _, result_register candidate reply, hnext, fun id hid =>
        (hholds id hid).of_registry (s.grows_step _) hregistry⟩

/-- The answer to an update is the directory's. -/
theorem Updating.collect {octets : List UInt8} (h : Updating s i c id r topics)
    (hp : s.server.host.peers[i]? = some p) (hwaiting : c.waiting = true)
    (hoctets : (c.caller.collect p.link).1 = .ok octets) :
    ∃ reply done, (Call.setTopics id topics).result (.ok octets) = .ok reply ∧
      Ledger (s.step (.collect i)) i ⟨c.caller, false⟩ done [] ∧
      ((s.step (.collect i)).Alone i id → reply = .done) ∧
      Holds (s.step (.collect i)) i id { r with topics } := by
  have hgrows := s.grows_step (.collect i)
  have hregistry : (s.step (.collect i)).registry = s.registry := (s.moves_step _).registry nofun
  cases h with
  | ahead h =>
    rcases h.collect hp hwaiting with ⟨fault, hfault, -⟩ | ⟨_, _, _, -, hahead, -⟩
    · rw [hfault] at hoctets
      cases hoctets
    · cases hahead
  | @made _ reply h hreply hholds =>
    rcases h.collect hp hwaiting with
      ⟨fault, hfault, -⟩ | ⟨octets', past, request, hok, -, hdone, hnext⟩
    · rw [hfault] at hoctets
      cases hoctets
    · obtain rfl := Except.ok.inj (hok.symm.trans hoctets)
      obtain ⟨-, hlast⟩ := List.append_inj' hdone rfl
      obtain ⟨-, rfl⟩ := Prod.mk.inj (List.singleton_inj.1 hlast)
      exact ⟨reply, _, result_setTopics id topics reply, hnext,
        fun halone => hreply (halone.of_grows hgrows), hholds.of_registry hgrows hregistry⟩

end Service

end TopicDirectory
