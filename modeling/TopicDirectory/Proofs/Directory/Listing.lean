import TopicDirectory.Proofs.Directory.Emissions
import TopicDirectory.Proofs.Directory.Naming

/-!
# An id names one publisher for good

Whatever requests a directory deals with, an id that it has given once never stands for another
address or another name (`Listed.same`).  So whoever knows a publisher by its id from one snapshot
knows where it is in every other one that lists the id.
-/

namespace TopicDirectory

namespace Registry

open Directory (dispatch dispatch_granted)

variable {r s : Registry} {id : UInt32} {q : Record}

/-! ## One change -/

theorem nextId_le_of_grant {c : Change} (h : r.grant? c = some s) : r.nextId ≤ s.nextId := by
  rcases grant?_cases h with ⟨candidate, rfl, hr⟩ | ⟨id, p, rfl, hr⟩ | ⟨id, topics, rfl, hr⟩
  · exact UInt32.le_of_lt (nextId_lt_of_register hr)
  · obtain ⟨-, rfl⟩ := deregister_eq_ok.1 hr
    exact UInt32.le_refl _
  · obtain ⟨-, rfl⟩ := setTopics_eq_ok.1 hr
    exact UInt32.le_refl _

/-- An id that was given before stands for the publisher for which it stood before. -/
theorem get?_of_grant {c : Change} (h : r.grant? c = some s) (hid : id < r.nextId)
    (hq : s.get? id = some q) :
    ∃ p, r.get? id = some p ∧ p.address = q.address ∧ p.name = q.name := by
  rcases grant?_cases h with ⟨candidate, rfl, hr⟩ | ⟨id', gone, rfl, hr⟩ | ⟨id', topics, rfl, hr⟩
  · rcases get?_of_register hr hq with ⟨rfl, -⟩ | hold
    · exact absurd hid (UInt32.lt_irrefl _)
    · exact ⟨q, hold, rfl, rfl⟩
  · exact ⟨q, get?_of_deregister hr hq, rfl, rfl⟩
  · obtain ⟨p, hp, -, haddress, hname⟩ := get?_of_setTopics hr hq
    exact ⟨p, hp, haddress, hname⟩

theorem nextId_le_dispatch (r : Registry) (frame : List UInt8) :
    r.nextId ≤ ((dispatch r frame).registry r).nextId := by
  rcases dispatch_granted r frame with ⟨-, hsame⟩ | ⟨c, s, -, rfl, hc⟩
  · rw [hsame]
    exact UInt32.le_refl _
  · exact nextId_le_of_grant hc

theorem get?_of_dispatch {frame : List UInt8} (hid : id < r.nextId)
    (hq : ((dispatch r frame).registry r).get? id = some q) :
    ∃ p, r.get? id = some p ∧ p.address = q.address ∧ p.name = q.name := by
  rcases dispatch_granted r frame with ⟨-, hsame⟩ | ⟨c, s, -, rfl, hc⟩
  · rw [hsame] at hq
    exact ⟨q, hq, rfl, rfl⟩
  · exact get?_of_grant hc hid hq

/-! ## Any number of requests -/

theorem get?_of_fed {frames : List (List UInt8)} (hid : id < r.nextId)
    (hq : (r.fed frames).get? id = some q) :
    ∃ p, r.get? id = some p ∧ p.address = q.address ∧ p.name = q.name := by
  induction frames generalizing r with
  | nil => exact ⟨q, hq, rfl, rfl⟩
  | cons frame frames ih =>
    have hnext := nextId_le_dispatch r frame
    obtain ⟨p, hp, haddress, hname⟩ := ih (UInt32.lt_of_lt_of_le hid hnext) hq
    obtain ⟨p', hp', haddress', hname'⟩ := get?_of_dispatch hid hp
    exact ⟨p', hp', haddress'.trans haddress, hname'.trans hname⟩

end Registry

/-- Whether a directory that has dealt with some requests has had a record under an id. -/
def Listed (requests : List (List UInt8)) (id : UInt32) (p : Record) : Prop :=
  ∃ past, past <+: requests ∧ (Registry.fed {} past).get? id = some p

namespace Listed

variable {requests : List (List UInt8)} {id : UInt32} {p q : Record}

theorem mono {more : List (List UInt8)} (h : Listed requests id p) (hmore : requests <+: more) :
    Listed more id p := by
  obtain ⟨past, hpast, hget⟩ := h
  exact ⟨past, hpast.trans hmore, hget⟩

/-- A record is listed under its own id. -/
theorem own (h : Listed requests id p) : p.id = some id := by
  obtain ⟨past, -, hget⟩ := h
  exact (Directory.coherent_fed Registry.coherent_new past).ownId id p hget

theorem readable (h : Listed requests id p) : (Endpoint.ofText? p.address).isSome := by
  obtain ⟨past, -, hget⟩ := h
  exact (Directory.coherent_fed Registry.coherent_new past).readable id p hget

/-- **An id names one publisher.**  All records that a directory ever has under an id have one
address and one name. -/
theorem same (hp : Listed requests id p) (hq : Listed requests id q) :
    p.address = q.address ∧ p.name = q.name := by
  have hlater : ∀ {past later : List (List UInt8)} {p q : Record}, past <+: later →
      (Registry.fed {} past).get? id = some p → (Registry.fed {} later).get? id = some q →
      p.address = q.address ∧ p.name = q.name := by
    rintro past _ p q ⟨more, rfl⟩ hp hq
    rw [Registry.fed_append] at hq
    have hid := (Directory.coherent_fed Registry.coherent_new past).below id p hp
    obtain ⟨p', hp', hsame⟩ := Registry.get?_of_fed hid hq
    obtain rfl : p = p' := Option.some.inj (hp.symm.trans hp')
    exact hsame
  obtain ⟨past, hpast, hp⟩ := hp
  obtain ⟨past', hpast', hq⟩ := hq
  rcases List.prefix_or_prefix_of_prefix hpast hpast' with hle | hle
  · exact hlater hle hp hq
  · exact (hlater hle hq hp).imp Eq.symm Eq.symm

end Listed

namespace Directory

/-- What is emitted is the snapshot after some of the requests. -/
theorem exists_of_mem_course {s : State} (hs : s.published = s.registry.snapshot)
    {requests : List (List UInt8)} {e : Emission} (he : e ∈ s.course requests) :
    ∃ past, past <+: requests ∧ e.snapshot = (s.registry.fed past).snapshot := by
  induction requests generalizing s with
  | nil => cases he
  | cons request requests ih =>
    rcases List.mem_append.1 he with he | he
    · refine ⟨[request], List.prefix_append [request] requests, ?_⟩
      rw [snapshot_of_mem_emits hs he, registry_respond]
      rfl
    · obtain ⟨past, hpast, hsnapshot⟩ := ih (published_respond hs request) he
      refine ⟨request :: past, (List.prefix_cons_inj request).2 hpast, ?_⟩
      rw [hsnapshot, registry_respond]
      rfl

/-- What a snapshot says of an id is what the directory had under it. -/
theorem listed_of_mem_emissions {c : Config.Server} {requests : List (List UInt8)} {e : Emission}
    {id : UInt32} {p : Record} (he : e ∈ (Server.new c).state.emissions requests)
    (hp : e.snapshot.get? id = some p) : Listed requests id p := by
  rcases List.mem_cons.1 he with rfl | he
  · cases hp
  · obtain ⟨past, hpast, hsnapshot⟩ := exists_of_mem_course rfl he
    rw [hsnapshot] at hp
    exact ⟨past, hpast, hp⟩

end Directory

end TopicDirectory
