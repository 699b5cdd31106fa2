import TopicDirectory.Registry

/-!
# The registry is its history

A call that asks the registry for a change is granted or refused (`grant?`), and the calls that were
granted (`granted`) tell all there is to know of the registry (`Tells`): who is in it and with which
topics, which id comes next, and the generation.  What the registry does with the next call can be
read off them, too (`Recounts`).

The induction is on the calls, with one step for a call that is granted (`Tells.step`).
-/

namespace TopicDirectory.Registry

/-! ## Calls -/

/-- A call that asks for a change. -/
inductive Change
  | register (candidate : Record)
  | deregister (id : UInt32)
  | setTopics (id : UInt32) (topics : List String)
deriving DecidableEq

/-- The registry after a call, if the call is granted. -/
def grant? (r : Registry) : Change → Option Registry
  | .register candidate => (r.register candidate).toOption.map (·.2)
  | .deregister id => (r.deregister id).toOption.map (·.2)
  | .setTopics id topics => (r.setTopics id topics).toOption

/-- The registry after calls one after the other; a call that is refused leaves it as it is. -/
def after (r : Registry) (cs : List Change) : Registry :=
  cs.foldl (fun r c => (r.grant? c).getD r) r

/-- Those of the calls that are granted. -/
def granted (r : Registry) : List Change → List Change
  | [] => []
  | c :: cs =>
    match r.grant? c with
    | some r => c :: r.granted cs
    | none => r.granted cs

theorem after_append (r : Registry) (cs ds : List Change) :
    r.after (cs ++ ds) = (r.after cs).after ds := by
  simp only [after, List.foldl_append]

theorem after_singleton (r : Registry) (c : Change) : r.after [c] = (r.grant? c).getD r := rfl

theorem granted_append (r : Registry) (cs ds : List Change) :
    r.granted (cs ++ ds) = r.granted cs ++ (r.after cs).granted ds := by
  induction cs generalizing r with
  | nil => rfl
  | cons c cs ih =>
    cases hc : r.grant? c with
    | none => simp only [List.cons_append, granted, hc, ih, after, List.foldl_cons, Option.getD_none]
    | some s => simp only [List.cons_append, granted, hc, ih, after, List.foldl_cons, Option.getD_some]

theorem length_granted_le (r : Registry) (cs : List Change) :
    (r.granted cs).length ≤ cs.length := by
  induction cs generalizing r with
  | nil => exact Nat.le_refl _
  | cons c cs ih =>
    rw [granted]
    split
    · exact Nat.succ_le_succ (ih _)
    · exact Nat.le_succ_of_le (ih _)

theorem register_eq_ok {r s : Registry} {candidate : Record} {id : UInt32} :
    r.register candidate = .ok (id, s) ↔
      (Endpoint.ofText? candidate.address).isSome ∧
        (r.withAddress? candidate.address).isNone ∧ r.nextId + 1 ≠ 0 ∧ id = r.nextId ∧
        s = { records := r.records.insert r.nextId { candidate with id := some r.nextId }
              nextId := r.nextId + 1
              generation := r.generation + 1 } := by
  rw [register]
  cases Endpoint.ofText? candidate.address with
  | none => simp
  | some e =>
    cases r.withAddress? candidate.address with
    | some p => simp
    | none =>
      by_cases hid : r.nextId + 1 = 0
      · simp [hid]
      · simp [hid, eq_comm]

theorem deregister_eq_ok {r s : Registry} {id : UInt32} {p : Record} :
    r.deregister id = .ok (p, s) ↔
      r.get? id = some p ∧
        s = { r with records := r.records.erase id, generation := r.generation + 1 } := by
  rw [deregister]
  cases r.get? id with
  | none => simp
  | some q => simp [eq_comm]

theorem setTopics_eq_ok {r s : Registry} {id : UInt32} {topics : List String} :
    r.setTopics id topics = .ok s ↔
      (r.get? id).isSome ∧
        s = { r with
          records := r.records.adjust id fun p => { p with topics }
          generation := r.generation + 1 } := by
  rw [setTopics]
  cases r.get? id with
  | none => simp
  | some q => simp [eq_comm]

/-- What a call that is granted does. -/
theorem grant?_cases {r s : Registry} {c : Change} (h : r.grant? c = some s) :
    (∃ candidate, c = .register candidate ∧ r.register candidate = .ok (r.nextId, s)) ∨
    (∃ id p, c = .deregister id ∧ r.deregister id = .ok (p, s)) ∨
    (∃ id topics, c = .setTopics id topics ∧ r.setTopics id topics = .ok s) := by
  cases c with
  | register candidate =>
    rw [grant?] at h
    cases hr : r.register candidate with
    | error e => rw [hr] at h; cases h
    | ok a =>
      rw [hr] at h
      obtain rfl : a.2 = s := Option.some.inj h
      have hid : a.1 = r.nextId := (register_eq_ok.1 hr).2.2.2.1
      exact .inl ⟨candidate, rfl, by rw [← hid, hr]⟩
  | deregister id =>
    rw [grant?] at h
    cases hr : r.deregister id with
    | error e => rw [hr] at h; cases h
    | ok a =>
      rw [hr] at h
      obtain rfl : a.2 = s := Option.some.inj h
      exact .inr (.inl ⟨id, a.1, rfl, hr⟩)
  | setTopics id topics =>
    rw [grant?] at h
    cases hr : r.setTopics id topics with
    | error e => rw [hr] at h; cases h
    | ok t =>
      rw [hr] at h
      obtain rfl : t = s := Option.some.inj h
      exact .inr (.inr ⟨id, topics, rfl, hr⟩)

/-! ## What calls that were granted tell -/

/-- The candidates that were registered, in the order in which they were. -/
def candidates (past : List Change) : List Record :=
  past.filterMap fun
    | .register candidate => some candidate
    | _ => none

/-- The topics that were set for an id, the latest last. -/
def updates (past : List Change) (id : UInt32) : List (List String) :=
  past.filterMap fun
    | .setTopics i topics => if i = id then some topics else none
    | _ => none

/-- Whether the publisher with an id is live: it was registered and not deregistered. -/
def Live (past : List Change) (id : UInt32) : Prop :=
  id.toNat < (candidates past).length ∧ .deregister id ∉ past

/-- The record with an id: the address and the name are those of its registration, the topics those
that were set last. -/
def record? (past : List Change) (id : UInt32) : Option Record :=
  if .deregister id ∈ past then none
  else (candidates past)[id.toNat]?.map fun c =>
    { c with id := some id, topics := (updates past id).getLast?.getD c.topics }

theorem isSome_record? {past : List Change} {id : UInt32} :
    (record? past id).isSome ↔ Live past id := by
  rw [record?, Live]
  split
  · rename_i hgone
    simp [hgone]
  · rename_i hlive
    simp [hlive]

/-- What a registry owes to the calls that were granted. -/
structure Tells (past : List Change) (r : Registry) : Prop where
  records : ∀ id, r.get? id = record? past id
  nextId : r.nextId.toNat = (candidates past).length
  generation : r.generation = UInt64.ofNat past.length
  setKnown : ∀ id topics, .setTopics id topics ∈ past → id.toNat < (candidates past).length
  goneKnown : ∀ id, .deregister id ∈ past → id.toNat < (candidates past).length

theorem tells_nil : Tells [] {} where
  records _ := rfl
  nextId := rfl
  generation := rfl
  setKnown _ _ h := nomatch h
  goneKnown _ h := nomatch h

/-! ## One more call -/

@[simp] theorem candidates_concat_register (past : List Change) (c : Record) :
    candidates (past ++ [.register c]) = candidates past ++ [c] := by
  simp [candidates]

@[simp] theorem candidates_concat_deregister (past : List Change) (id : UInt32) :
    candidates (past ++ [.deregister id]) = candidates past := by
  simp [candidates]

@[simp] theorem candidates_concat_setTopics (past : List Change) (id : UInt32)
    (topics : List String) : candidates (past ++ [.setTopics id topics]) = candidates past := by
  simp [candidates]

@[simp] theorem updates_concat_register (past : List Change) (c : Record) (id : UInt32) :
    updates (past ++ [.register c]) id = updates past id := by
  simp [updates]

@[simp] theorem updates_concat_deregister (past : List Change) (i id : UInt32) :
    updates (past ++ [.deregister i]) id = updates past id := by
  simp [updates]

theorem updates_concat_setTopics (past : List Change) (i id : UInt32) (topics : List String) :
    updates (past ++ [.setTopics i topics]) id
      = if i = id then updates past id ++ [topics] else updates past id := by
  by_cases hi : i = id <;> simp [updates, hi]

theorem updates_eq_nil {past : List Change} {id : UInt32}
    (h : ∀ topics, Change.setTopics id topics ∉ past) : updates past id = [] := by
  apply List.filterMap_eq_nil_iff.2
  intro c hc
  cases c with
  | setTopics i topics =>
    have hne : i ≠ id := by
      rintro rfl
      exact h topics hc
    exact if_neg hne
  | _ => rfl

theorem record?_concat_register {past : List Change} {r : Registry} (h : Tells past r) (c : Record)
    (id : UInt32) : record? (past ++ [.register c]) id
      = if id = r.nextId then some { c with id := some id } else record? past id := by
  have hmem : Change.deregister id ∈ past ++ [Change.register c] ↔ Change.deregister id ∈ past := by
    simp
  by_cases hid : id = r.nextId
  · have hlast : id.toNat = (candidates past).length := by rw [hid, h.nextId]
    have hgone : Change.deregister id ∉ past := fun hmem =>
      absurd (h.goneKnown id hmem) (by omega)
    have hset : updates past id = [] := updates_eq_nil fun topics hmem =>
      absurd (h.setKnown id topics hmem) (by omega)
    rw [if_pos hid, record?, if_neg (mt hmem.1 hgone), updates_concat_register, hset,
      candidates_concat_register, hlast, List.getElem?_concat_length]
    rfl
  · have hne : id.toNat ≠ (candidates past).length := fun heq =>
      hid (UInt32.toNat_inj.1 (heq.trans h.nextId.symm))
    have hget : (candidates past ++ [c])[id.toNat]? = (candidates past)[id.toNat]? := by
      rcases Nat.lt_or_gt_of_ne hne with hlt | hgt
      · exact List.getElem?_append_left hlt
      · rw [List.getElem?_eq_none (by simp; omega), List.getElem?_eq_none (by omega)]
    rw [if_neg hid, record?, record?, updates_concat_register, candidates_concat_register, hget]
    simp only [hmem]

theorem record?_concat_deregister (past : List Change) (i id : UInt32) :
    record? (past ++ [.deregister i]) id = if id = i then none else record? past id := by
  rw [record?, record?, updates_concat_deregister, candidates_concat_deregister]
  by_cases hid : id = i
  · simp [hid]
  · simp [hid]

theorem record?_concat_setTopics (past : List Change) (i id : UInt32) (topics : List String) :
    record? (past ++ [.setTopics i topics]) id
      = if id = i then (record? past id).map fun p => { p with topics } else record? past id := by
  have hmem : Change.deregister id ∈ past ++ [Change.setTopics i topics]
      ↔ Change.deregister id ∈ past := by
    simp
  rw [record?, record?, updates_concat_setTopics, candidates_concat_setTopics]
  by_cases hid : id = i
  · rw [if_pos hid, if_pos hid.symm, List.getLast?_concat]
    by_cases hgone : Change.deregister id ∈ past
    · rw [if_pos (hmem.2 hgone), if_pos hgone, Option.map_none]
    · rw [if_neg (mt hmem.1 hgone), if_neg hgone, Option.map_map]
      rfl
  · rw [if_neg hid, if_neg (Ne.symm hid)]
    simp only [hmem]

theorem Tells.live_of_get? {past : List Change} {r : Registry} (h : Tells past r) {id : UInt32}
    (hsome : (r.get? id).isSome) : Live past id := by
  rw [h.records] at hsome
  exact isSome_record?.1 hsome

theorem Tells.generation_succ {past : List Change} {r : Registry} (h : Tells past r) (c : Change) :
    r.generation + 1 = UInt64.ofNat (past ++ [c]).length := by
  rw [h.generation, List.length_append]
  exact (UInt64.ofNat_add _ _).symm

theorem Tells.register {past : List Change} {r s : Registry} {c : Record} {id : UInt32}
    (h : Tells past r) (hr : r.register c = .ok (id, s)) : Tells (past ++ [.register c]) s := by
  obtain ⟨-, -, hnext, -, rfl⟩ := register_eq_ok.1 hr
  have hlt : r.nextId.toNat + 1 < UInt32.size := by
    have hmax : r.nextId.toNat < UInt32.size := r.nextId.toNat_lt
    have hne : r.nextId.toNat + 1 ≠ UInt32.size := fun heq =>
      hnext (UInt32.toNat_inj.1 (by rw [UInt32.toNat_add]; simp [heq]))
    omega
  refine ⟨?_, ?_, h.generation_succ _, ?_, ?_⟩
  · intro id
    rw [record?_concat_register h, ← h.records]
    show (r.records.insert _ _).get? id = _
    rw [IdMap.get?_insert]
    by_cases hid : id = r.nextId
    · rw [if_pos hid, if_pos hid, hid]
    · rw [if_neg hid, if_neg hid]
      rfl
  · show (r.nextId + 1).toNat = _
    rw [UInt32.toNat_add, candidates_concat_register, List.length_append, ← h.nextId]
    exact Nat.mod_eq_of_lt hlt
  · intro id topics hmem
    have hold : Change.setTopics id topics ∈ past := by simpa using hmem
    have hknown := h.setKnown id topics hold
    rw [candidates_concat_register, List.length_append]
    omega
  · intro id hmem
    have hold : Change.deregister id ∈ past := by simpa using hmem
    have hknown := h.goneKnown id hold
    rw [candidates_concat_register, List.length_append]
    omega

theorem Tells.deregister {past : List Change} {r s : Registry} {i : UInt32} {p : Record}
    (h : Tells past r) (hr : r.deregister i = .ok (p, s)) : Tells (past ++ [.deregister i]) s := by
  obtain ⟨hp, rfl⟩ := deregister_eq_ok.1 hr
  have hlive : Live past i := h.live_of_get? (by rw [hp]; rfl)
  refine ⟨?_, ?_, h.generation_succ _, ?_, ?_⟩
  · intro id
    rw [record?_concat_deregister, ← h.records]
    exact IdMap.get?_erase _ _ _
  · rw [candidates_concat_deregister]
    exact h.nextId
  · intro id topics hmem
    rw [candidates_concat_deregister]
    exact h.setKnown id topics (by simpa using hmem)
  · intro id hmem
    rw [candidates_concat_deregister]
    rcases List.mem_append.1 hmem with hold | hnew
    · exact h.goneKnown id hold
    · obtain rfl : id = i := by simpa using hnew
      exact hlive.1

theorem Tells.setTopics {past : List Change} {r s : Registry} {i : UInt32} {topics : List String}
    (h : Tells past r) (hr : r.setTopics i topics = .ok s) :
    Tells (past ++ [.setTopics i topics]) s := by
  obtain ⟨hp, rfl⟩ := setTopics_eq_ok.1 hr
  have hlive : Live past i := h.live_of_get? hp
  refine ⟨?_, ?_, h.generation_succ _, ?_, ?_⟩
  · intro id
    rw [record?_concat_setTopics, ← h.records]
    exact IdMap.get?_adjust _ _ _ _
  · rw [candidates_concat_setTopics]
    exact h.nextId
  · intro id ts hmem
    rw [candidates_concat_setTopics]
    rcases List.mem_append.1 hmem with hold | hnew
    · exact h.setKnown id ts hold
    · obtain ⟨rfl, -⟩ : id = i ∧ ts = topics := by simpa using hnew
      exact hlive.1
  · intro id hmem
    rw [candidates_concat_setTopics]
    exact h.goneKnown id (by simpa using hmem)

/-- A call that is granted is one more thing that the past tells of. -/
theorem Tells.step {past : List Change} {r s : Registry} {c : Change} (h : Tells past r)
    (hc : r.grant? c = some s) : Tells (past ++ [c]) s := by
  rcases grant?_cases hc with ⟨candidate, rfl, hr⟩ | ⟨id, p, rfl, hr⟩ | ⟨id, topics, rfl, hr⟩
  · exact h.register hr
  · exact h.deregister hr
  · exact h.setTopics hr

theorem Tells.run {past : List Change} {r : Registry} (h : Tells past r) (cs : List Change) :
    Tells (past ++ r.granted cs) (r.after cs) := by
  induction cs generalizing past r with
  | nil =>
    rw [granted, List.append_nil]
    exact h
  | cons c cs ih =>
    rw [granted, after, List.foldl_cons, ← after]
    cases hc : r.grant? c with
    | none => exact ih h
    | some s =>
      have hrun := ih (h.step hc)
      rwa [List.append_assoc] at hrun

theorem tells_granted (cs : List Change) : Tells (granted {} cs) (after {} cs) :=
  tells_nil.run cs

/-! ## What the registry does next -/

theorem isNone_withAddress? {r : Registry} {address : String} :
    (r.withAddress? address).isNone ↔ ∀ id p, r.get? id = some p → p.address ≠ address := by
  rw [withAddress?, Option.isNone_iff_eq_none, List.find?_eq_none]
  constructor
  · intro h id p hp
    simpa using h p (IdMap.mem_values.2 ⟨id, hp⟩)
  · intro h p hp
    obtain ⟨id, hid⟩ := IdMap.mem_values.1 hp
    simpa using h id p hid

theorem nextId_add_one_ne_zero {r : Registry} :
    r.nextId + 1 ≠ 0 ↔ r.nextId.toNat < UInt32.size - 1 := by
  have hmax : r.nextId.toNat < 0x100000000 := r.nextId.toNat_lt
  rw [Ne, ← UInt32.toNat_inj, UInt32.toNat_add]
  show ¬ (r.nextId.toNat + 1) % 0x100000000 = 0 ↔ r.nextId.toNat < 0x100000000 - 1
  omega

/-- A registry as the calls that it granted give it. -/
structure Recounts (past : List Change) (r : Registry) : Prop where
  registers : ∀ candidate, (∃ id s, r.register candidate = .ok (id, s)) ↔
    (Endpoint.ofText? candidate.address).isSome ∧
      (∀ id p, r.get? id = some p → p.address ≠ candidate.address) ∧
      (candidates past).length < UInt32.size - 1
  givesId : ∀ candidate id s, r.register candidate = .ok (id, s) →
    id.toNat = (candidates past).length
  deregisters : ∀ id, (∃ p s, r.deregister id = .ok (p, s)) ↔ Live past id
  setsTopics : ∀ id topics, (∃ s, r.setTopics id topics = .ok s) ↔ Live past id
  records : ∀ id, r.get? id = record? past id
  nextId : r.nextId.toNat = (candidates past).length
  generation : r.generation.toNat = past.length

theorem Tells.recounts {past : List Change} {r : Registry} (h : Tells past r)
    (hlen : past.length < UInt64.size) : Recounts past r where
  registers candidate := by
    rw [← isNone_withAddress?, ← h.nextId, ← nextId_add_one_ne_zero]
    constructor
    · rintro ⟨id, s, hr⟩
      obtain ⟨haddress, hfree, hnext, -⟩ := register_eq_ok.1 hr
      exact ⟨haddress, hfree, hnext⟩
    · rintro ⟨haddress, hfree, hnext⟩
      exact ⟨_, _, register_eq_ok.2 ⟨haddress, hfree, hnext, rfl, rfl⟩⟩
  givesId candidate id s hr := by
    rw [(register_eq_ok.1 hr).2.2.2.1, h.nextId]
  deregisters id := by
    rw [← isSome_record?, ← h.records]
    constructor
    · rintro ⟨p, s, hr⟩
      rw [(deregister_eq_ok.1 hr).1]
      rfl
    · intro hsome
      obtain ⟨p, hp⟩ := Option.isSome_iff_exists.1 hsome
      exact ⟨p, _, deregister_eq_ok.2 ⟨hp, rfl⟩⟩
  setsTopics id topics := by
    rw [← isSome_record?, ← h.records]
    constructor
    · rintro ⟨s, hr⟩
      exact (setTopics_eq_ok.1 hr).1
    · intro hsome
      exact ⟨_, setTopics_eq_ok.2 ⟨hsome, rfl⟩⟩
  records := h.records
  nextId := h.nextId
  generation := by
    rw [h.generation]
    exact UInt64.toNat_ofNat_of_lt hlen

/-- An id keeps its address and its name, and once it is gone it never comes back. -/
theorem record?_append {past more : List Change} {id : UInt32} {p : Record}
    (hid : id.toNat < (candidates past).length) (hp : record? (past ++ more) id = some p) :
    ∃ q, record? past id = some q ∧ q.address = p.address ∧ q.name = p.name := by
  have hgone : Change.deregister id ∉ past ++ more := fun hmem => by
    rw [record?, if_pos hmem] at hp
    cases hp
  have hgone' : Change.deregister id ∉ past := fun hmem => hgone (List.mem_append_left _ hmem)
  have hsame : (candidates (past ++ more))[id.toNat]? = (candidates past)[id.toNat]? := by
    rw [candidates, List.filterMap_append]
    exact List.getElem?_append_left hid
  rw [record?, if_neg hgone, hsame, List.getElem?_eq_getElem hid] at hp
  obtain rfl := Option.some.inj hp
  rw [record?, if_neg hgone', List.getElem?_eq_getElem hid]
  exact ⟨_, rfl, rfl, rfl⟩

/-- What the next call does: it is granted and joins the history, or nothing has happened. -/
theorem granted_concat (r : Registry) (cs : List Change) (c : Change) :
    (∃ s, (r.after cs).grant? c = some s ∧ r.granted (cs ++ [c]) = r.granted cs ++ [c] ∧
      r.after (cs ++ [c]) = s) ∨
    ((r.after cs).grant? c = none ∧ r.granted (cs ++ [c]) = r.granted cs ∧
      r.after (cs ++ [c]) = r.after cs) := by
  rw [granted_append, after_append, after_singleton]
  cases hc : (r.after cs).grant? c with
  | none => exact .inr ⟨rfl, by simp [granted, hc], rfl⟩
  | some s => exact .inl ⟨s, rfl, by simp [granted, hc], rfl⟩

/-- **The registry is its history.**  Whatever calls are made on a new registry, those that were
granted tell what is in it and what it grants next; a call that is refused changes nothing; and
whatever calls follow, an id that was given never comes back once it is gone, and never changes its
address or its name. -/
theorem recounts_granted {cs : List Change} (h : cs.length < UInt64.size) :
    Recounts (granted {} cs) (after {} cs) ∧
    (∀ c, (∃ s, (after {} cs).grant? c = some s ∧
        granted {} (cs ++ [c]) = granted {} cs ++ [c] ∧ after {} (cs ++ [c]) = s) ∨
      ((after {} cs).grant? c = none ∧
        granted {} (cs ++ [c]) = granted {} cs ∧ after {} (cs ++ [c]) = after {} cs)) ∧
    (∀ more id p, id.toNat < (candidates (granted {} cs)).length →
      (after {} (cs ++ more)).get? id = some p →
      ∃ q, (after {} cs).get? id = some q ∧ q.address = p.address ∧ q.name = p.name) := by
  refine ⟨?_, granted_concat {} cs, ?_⟩
  · have hlen : (granted {} cs).length < UInt64.size := Nat.lt_of_le_of_lt (length_granted_le _ _) h
    exact (tells_granted cs).recounts hlen
  · intro more id p hid hp
    rw [(tells_granted (cs ++ more)).records, granted_append] at hp
    rw [(tells_granted cs).records]
    exact record?_append hid hp

/-- Calls of every kind, granted and refused. -/
def sampleChanges : List Change :=
  [.register ⟨some 9, "tcp://h:1", "a", ["t"]⟩, .register ⟨none, "tcp://h:1", "b", []⟩,
    .register ⟨none, "h", "c", []⟩, .setTopics 0 ["u"], .deregister 0, .setTopics 0 [],
    .register ⟨some 0, "tcp://h:1", "d", []⟩, .deregister 5]

theorem recounts_granted_sampleChanges :
    sampleChanges.length < UInt64.size ∧ Recounts (granted {} sampleChanges) (after {} sampleChanges) ∧
      (candidates (granted {} sampleChanges)).length = 2 ∧ (granted {} sampleChanges).length = 4 :=
  have h : sampleChanges.length < UInt64.size := by decide
  ⟨h, (recounts_granted h).1, by decide +kernel, by decide +kernel⟩

end TopicDirectory.Registry
