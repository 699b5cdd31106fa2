import TopicDirectory.Network.Parties
import TopicDirectory.Proofs.Registry.History

/-!
# What holds of every registry

Whatever calls are made on a new registry, granted or refused, each record is kept under its own id,
no id is given that is still to come, no two records have one address, and every address can be read
(`Coherent`).  So an address finds the one record that has it, and whoever subscribes to a publisher
from a snapshot can read where to call.

A call that takes in nobody keeps ids and addresses as they are (`Coherent.of_kept`); a registration
brings in one id and one address, and both are new (`Coherent.register`).
-/

namespace TopicDirectory

namespace Registry

/-- Whether the records of a registry agree with each other and with what the registry does next. -/
structure Coherent (r : Registry) : Prop where
  /-- A record is kept under its own id. -/
  ownId : ∀ id p, r.get? id = some p → p.id = some id
  /-- The ids that were given are below the one that comes next. -/
  below : ∀ id p, r.get? id = some p → id < r.nextId
  /-- Two records do not have one address. -/
  apart : ∀ i j p q, r.get? i = some p → r.get? j = some q → p.address = q.address → i = j
  /-- Every address can be read. -/
  readable : ∀ id p, r.get? id = some p → (Endpoint.ofText? p.address).isSome

theorem coherent_new : Coherent {} :=
  ⟨nofun, nofun, nofun, nofun⟩

/-! ## One call -/

/-- Nothing is lost where each record was there before, with the same id and the same address. -/
theorem Coherent.of_kept {r s : Registry} (h : Coherent r) (hnext : s.nextId = r.nextId)
    (hkept : ∀ id p, s.get? id = some p →
      ∃ q, r.get? id = some q ∧ q.id = p.id ∧ q.address = p.address) : Coherent s where
  ownId id p hp := by
    obtain ⟨q, hq, hid, -⟩ := hkept id p hp
    rw [← hid]
    exact h.ownId id q hq
  below id p hp := by
    obtain ⟨q, hq, -, -⟩ := hkept id p hp
    rw [hnext]
    exact h.below id q hq
  apart i j p q hp hq haddress := by
    obtain ⟨p', hp', -, hpaddress⟩ := hkept i p hp
    obtain ⟨q', hq', -, hqaddress⟩ := hkept j q hq
    refine h.apart i j p' q' hp' hq' ?_
    rw [hpaddress, hqaddress, haddress]
  readable id p hp := by
    obtain ⟨q, hq, -, haddress⟩ := hkept id p hp
    rw [← haddress]
    exact h.readable id q hq

/-- After a removal every record is one of those that were there. -/
theorem get?_of_deregister {r s : Registry} {gone p : Record} {id i : UInt32}
    (hr : r.deregister id = .ok (gone, s)) (hp : s.get? i = some p) : r.get? i = some p := by
  obtain ⟨-, rfl⟩ := deregister_eq_ok.1 hr
  have hget : (if i = id then none else r.get? i) = some p := (IdMap.get?_erase _ _ _).symm.trans hp
  split at hget
  · cases hget
  · exact hget

/-- After an update every record is one of those that were there, apart from its topics. -/
theorem get?_of_setTopics {r s : Registry} {id i : UInt32} {topics : List String} {p : Record}
    (hr : r.setTopics id topics = .ok s) (hp : s.get? i = some p) :
    ∃ q, r.get? i = some q ∧ q.id = p.id ∧ q.address = p.address ∧ q.name = p.name := by
  obtain ⟨-, rfl⟩ := setTopics_eq_ok.1 hr
  have hget : (if i = id then (r.get? i).map fun p => { p with topics } else r.get? i) = some p :=
    (IdMap.get?_adjust _ _ _ _).symm.trans hp
  split at hget
  · obtain ⟨q, hq, rfl⟩ := Option.map_eq_some_iff.1 hget
    exact ⟨q, hq, rfl, rfl, rfl⟩
  · exact ⟨p, hget, rfl, rfl, rfl⟩

theorem Coherent.deregister {r s : Registry} {id : UInt32} {gone : Record} (h : Coherent r)
    (hr : r.deregister id = .ok (gone, s)) : Coherent s := by
  have hnext : s.nextId = r.nextId := by
    obtain ⟨-, rfl⟩ := deregister_eq_ok.1 hr
    rfl
  exact h.of_kept hnext fun i p hp => ⟨p, get?_of_deregister hr hp, rfl, rfl⟩

theorem Coherent.setTopics {r s : Registry} {id : UInt32} {topics : List String} (h : Coherent r)
    (hr : r.setTopics id topics = .ok s) : Coherent s := by
  have hnext : s.nextId = r.nextId := by
    obtain ⟨-, rfl⟩ := setTopics_eq_ok.1 hr
    rfl
  refine h.of_kept hnext fun i p hp => ?_
  obtain ⟨q, hq, hid, haddress, -⟩ := get?_of_setTopics hr hp
  exact ⟨q, hq, hid, haddress⟩

/-- After a registration a record is the new one, or one of those that were there. -/
theorem get?_of_register {r s : Registry} {candidate p : Record} {id i : UInt32}
    (hr : r.register candidate = .ok (id, s)) (hp : s.get? i = some p) :
    (i = r.nextId ∧ p = { candidate with id := some r.nextId }) ∨ r.get? i = some p := by
  obtain ⟨-, -, -, -, rfl⟩ := register_eq_ok.1 hr
  have hget : (if i = r.nextId then some { candidate with id := some r.nextId } else r.get? i)
      = some p := (IdMap.get?_insert _ _ _ _).symm.trans hp
  split at hget
  · rename_i hi
    exact .inl ⟨hi, (Option.some.inj hget).symm⟩
  · exact .inr hget

theorem nextId_lt_of_register {r s : Registry} {candidate : Record} {id : UInt32}
    (hr : r.register candidate = .ok (id, s)) : r.nextId < s.nextId := by
  obtain ⟨-, -, hlast, -, rfl⟩ := register_eq_ok.1 hr
  have hlt : r.nextId.toNat < 0x100000000 - 1 := nextId_add_one_ne_zero.1 hlast
  rw [UInt32.lt_iff_toNat_lt, UInt32.toNat_add]
  show _ < (r.nextId.toNat + 1) % 0x100000000
  omega

/-- The id of a new record is greater than all others, and nobody else has its address. -/
theorem Coherent.register {r s : Registry} {candidate : Record} {id : UInt32} (h : Coherent r)
    (hr : r.register candidate = .ok (id, s)) : Coherent s := by
  obtain ⟨hreadable, hnone, -⟩ := register_eq_ok.1 hr
  have hfree := isNone_withAddress?.1 hnone
  have hnext := nextId_lt_of_register hr
  refine ⟨?_, ?_, ?_, ?_⟩
  · intro i p hp
    rcases get?_of_register hr hp with ⟨rfl, rfl⟩ | hold
    · rfl
    · exact h.ownId i p hold
  · intro i p hp
    rcases get?_of_register hr hp with ⟨rfl, -⟩ | hold
    · exact hnext
    · exact UInt32.lt_trans (h.below i p hold) hnext
  · intro i j p q hp hq haddress
    rcases get?_of_register hr hp with ⟨rfl, rfl⟩ | hpold <;>
      rcases get?_of_register hr hq with ⟨rfl, rfl⟩ | hqold
    · rfl
    · exact absurd haddress.symm (hfree j q hqold)
    · exact absurd haddress (hfree i p hpold)
    · exact h.apart i j p q hpold hqold haddress
  · intro i p hp
    rcases get?_of_register hr hp with ⟨-, rfl⟩ | hold
    · exact hreadable
    · exact h.readable i p hold

/-! ## Any number of calls -/

theorem Coherent.grant {r s : Registry} {c : Change} (h : Coherent r) (hc : r.grant? c = some s) :
    Coherent s := by
  rcases grant?_cases hc with ⟨candidate, rfl, hr⟩ | ⟨id, p, rfl, hr⟩ | ⟨id, topics, rfl, hr⟩
  · exact h.register hr
  · exact h.deregister hr
  · exact h.setTopics hr

theorem Coherent.after {r : Registry} (h : Coherent r) (cs : List Change) :
    Coherent (r.after cs) := by
  induction cs generalizing r with
  | nil => exact h
  | cons c cs ih =>
    rw [Registry.after, List.foldl_cons, ← Registry.after]
    cases hc : r.grant? c with
    | none => exact ih h
    | some s => exact ih (h.grant hc)

/-! ## What follows -/

/-- An address finds a record, if one has it. -/
theorem isSome_withAddress? {r : Registry} {address : String} :
    (r.withAddress? address).isSome ↔ ∃ id p, r.get? id = some p ∧ p.address = address := by
  rw [withAddress?, List.find?_isSome]
  constructor
  · rintro ⟨p, hp, haddress⟩
    obtain ⟨id, hid⟩ := IdMap.mem_values.1 hp
    exact ⟨id, p, hid, of_decide_eq_true haddress⟩
  · rintro ⟨id, p, hp, haddress⟩
    exact ⟨p, IdMap.mem_values.2 ⟨id, hp⟩, decide_eq_true haddress⟩

/-- What an address finds is the record of an id. -/
theorem get?_of_withAddress? {r : Registry} {address : String} {p : Record}
    (h : r.withAddress? address = some p) : p.address = address ∧ ∃ id, r.get? id = some p := by
  have haddress : p.address = address := by simpa using List.find?_some h
  exact ⟨haddress, IdMap.mem_values.1 (List.mem_of_find?_eq_some h)⟩

/-- What a registry that agrees finds for an address is the only record that has it, and the one of
its own id. -/
theorem Coherent.found {r : Registry} (h : Coherent r) {address : String} {p : Record}
    (hp : r.withAddress? address = some p) :
    p.address = address ∧ ∃ id, p.id = some id ∧ r.get? id = some p ∧
      ∀ j q, r.get? j = some q → q.address = address → j = id ∧ q = p := by
  obtain ⟨haddress, id, hid⟩ := get?_of_withAddress? hp
  refine ⟨haddress, id, h.ownId id p hid, hid, fun j q hq hqaddress => ?_⟩
  obtain rfl : j = id := h.apart j id q p hq hid (hqaddress.trans haddress.symm)
  exact ⟨rfl, Option.some.inj (hq.symm.trans hid)⟩

end Registry

/-! ## Subscribing to what is in a snapshot -/

namespace Client.Subscriber

theorem checkTopic_ne (publisher : Record) (topic address : String) :
    checkTopic publisher topic ≠ .error (.addressUnreadable address) := by
  rw [checkTopic]
  split
  · nofun
  · split <;> nofun

theorem forM_checkTopic_ne (publisher : Record) (topics : List String) (address : String) :
    topics.forM (checkTopic publisher) ≠ .error (.addressUnreadable address) := by
  induction topics with
  | nil => nofun
  | cons topic topics ih =>
    have htopic := checkTopic_ne publisher topic address
    show (checkTopic publisher topic >>= fun _ => topics.forM (checkTopic publisher)) ≠ _
    cases hcheck : checkTopic publisher topic with
    | ok => exact ih
    | error e =>
      rw [hcheck] at htopic
      exact htopic

theorem endpoint_ne {publisher : Record} (h : (Endpoint.ofText? publisher.address).isSome)
    (topics : List String) (address : String) :
    endpoint publisher topics ≠ .error (.addressUnreadable address) := by
  obtain ⟨e, he⟩ := Option.isSome_iff_exists.1 h
  have htopics := forM_checkTopic_ne publisher topics address
  rw [endpoint]
  by_cases hnone : topics = []
  · rw [if_pos hnone]
    nofun
  · rw [if_neg hnone, he]
    cases hcheck : topics.forM (checkTopic publisher) with
    | ok => nofun
    | error e =>
      rw [hcheck] at htopics
      intro heq
      exact htopics (congrArg Except.error (Except.error.inj heq))

end Client.Subscriber

/-- Whoever subscribes to a publisher whose address can be read does not fail for the address. -/
theorem Network.Subscribing.connect_ne {publisher : Record}
    (h : (Endpoint.ofText? publisher.address).isSome) (n : Network) (c : Config.Client)
    (topics : List String) (address : String) :
    (connect n c publisher topics).1 ≠ .error (.addressUnreadable address) := by
  have hendpoint := Client.Subscriber.endpoint_ne h topics address
  rw [connect]
  cases he : Client.Subscriber.endpoint publisher topics with
  | error e =>
    rw [he] at hendpoint
    intro heq
    exact hendpoint (congrArg Except.error (Except.error.inj heq))
  | ok e =>
    dsimp only
    split <;> nofun

/-! ## Every registry -/

namespace Registry

/-- **What holds of every registry.**  Whatever calls are made on a new registry: its records are
under their own ids, below the next one, and their addresses differ and can be read; an address finds
a record exactly if one has it, and then that one; and nobody who subscribes to a publisher of a
snapshot fails for the publisher's address. -/
theorem coherent_after (cs : List Change) :
    Coherent (after {} cs) ∧
    (∀ address, ((after {} cs).withAddress? address).isSome ↔
      ∃ id p, (after {} cs).get? id = some p ∧ p.address = address) ∧
    (∀ address p, (after {} cs).withAddress? address = some p →
      p.address = address ∧ ∃ id, p.id = some id ∧ (after {} cs).get? id = some p ∧
        ∀ j q, (after {} cs).get? j = some q → q.address = address → j = id ∧ q = p) ∧
    (∀ id p, (after {} cs).snapshot.get? id = some p → ∀ n c topics address,
      (Network.Subscribing.connect n c p topics).1 ≠ .error (.addressUnreadable address)) := by
  have hcoherent : Coherent (after {} cs) := coherent_new.after cs
  refine ⟨hcoherent, fun _ => isSome_withAddress?, fun _ _ => hcoherent.found, ?_⟩
  intro id p hp n c topics address
  exact Network.Subscribing.connect_ne (hcoherent.readable id p hp) n c topics address

theorem coherent_after_sampleChanges :
    ∃ p, (after {} sampleChanges).withAddress? "tcp://h:1" = some p ∧ p.name = "d" ∧
      p.id = some 1 ∧ (after {} sampleChanges).get? 1 = some p ∧
      (∀ j q, (after {} sampleChanges).get? j = some q → q.address = "tcp://h:1" → j = 1 ∧ q = p) ∧
      ∀ n c topics address,
        (Network.Subscribing.connect n c p topics).1 ≠ .error (.addressUnreadable address) := by
  obtain ⟨-, -, hfound, hconnect⟩ := coherent_after sampleChanges
  have hp : (after {} sampleChanges).withAddress? "tcp://h:1"
      = some ⟨some 1, "tcp://h:1", "d", []⟩ := by decide +kernel
  obtain ⟨-, id, hid, hget, honly⟩ := hfound _ _ hp
  obtain rfl : 1 = id := Option.some.inj hid
  exact ⟨_, hp, rfl, rfl, hget, honly, hconnect 1 _ hget⟩

end Registry

end TopicDirectory
