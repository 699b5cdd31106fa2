import TopicDirectory.Proofs.Endpoint.Spelling
import TopicDirectory.Proofs.Registry.Invariant

/-!
# Which endpoints are live

The registry tells addresses apart by their texts.  So two live publishers can have one endpoint, but
only if they spell its port in different ways (`Endpoint.Respelled`); who spells endpoints as they are
written by `Endpoint.text` is told apart from everybody else who does (`endpoints_after`).
-/

namespace TopicDirectory

/-- Whether two texts give an endpoint in different spellings of its port. -/
def Endpoint.Respelled (e : Endpoint) (s t : String) : Prop :=
  ∃ plus zeros plus' zeros', (plus, zeros) ≠ (plus', zeros') ∧ s = e.spelled plus zeros ∧
    t = e.spelled plus' zeros'

/-- Different texts of one endpoint spell its port in different ways. -/
theorem Endpoint.respelled_of_ne {e : Endpoint} {s t : String} (hs : ofText? s = some e)
    (ht : ofText? t = some e) (hne : s ≠ t) : e.Respelled s t := by
  obtain ⟨-, plus, zeros, rfl⟩ := ofText?_eq_some_iff.1 hs
  obtain ⟨-, plus', zeros', rfl⟩ := ofText?_eq_some_iff.1 ht
  refine ⟨plus, zeros, plus', zeros', ?_, rfl, rfl⟩
  intro heq
  cases heq
  exact hne rfl

namespace Registry

/-- A candidate is refused for its address if it can be read and somebody has it. -/
theorem register_eq_addressTaken {r : Registry} {candidate : Record}
    (h : (Endpoint.ofText? candidate.address).isSome) :
    r.register candidate = .error (.addressTaken candidate.address) ↔
      ∃ id p, r.get? id = some p ∧ p.address = candidate.address := by
  have hreadable : (Endpoint.ofText? candidate.address).isNone = false := by
    rw [← Option.not_isSome, h]
    rfl
  rw [← isSome_withAddress?, register, hreadable, if_neg Bool.false_ne_true]
  cases (r.withAddress? candidate.address).isSome with
  | true => simp
  | false =>
    rw [if_neg Bool.false_ne_true]
    split <;> simp

theorem Coherent.respelled {r : Registry} (h : Coherent r) {i j : UInt32} {p q : Record}
    {e : Endpoint} (hp : r.get? i = some p) (hq : r.get? j = some q) (hne : i ≠ j)
    (hpe : Endpoint.ofText? p.address = some e) (hqe : Endpoint.ofText? q.address = some e) :
    e.Respelled p.address q.address :=
  Endpoint.respelled_of_ne hpe hqe fun haddress => hne (h.apart i j p q hp hq haddress)

/-- **Which endpoints are live.**  Whatever calls are made on a new registry: of two publishers that
have one endpoint, each spells its port in a way of its own, and so two that write their endpoints as
`Endpoint.text` does have two endpoints; a candidate whose address can be read is refused for it
exactly if that text is somebody's address, and so who asks for an endpoint that somebody has is
refused, or spells its port in another way. -/
theorem endpoints_after (cs : List Change) :
    (∀ i j p q e, (after {} cs).get? i = some p → (after {} cs).get? j = some q → i ≠ j →
      Endpoint.ofText? p.address = some e → Endpoint.ofText? q.address = some e →
      e.Respelled p.address q.address) ∧
    (∀ i j p q (e e' : Endpoint), (after {} cs).get? i = some p → (after {} cs).get? j = some q →
      i ≠ j → p.address = e.text → q.address = e'.text → e ≠ e') ∧
    (∀ candidate, (Endpoint.ofText? candidate.address).isSome →
      ((after {} cs).register candidate = .error (.addressTaken candidate.address) ↔
        ∃ id p, (after {} cs).get? id = some p ∧ p.address = candidate.address)) ∧
    (∀ id p candidate e, (after {} cs).get? id = some p → Endpoint.ofText? p.address = some e →
      Endpoint.ofText? candidate.address = some e →
      (after {} cs).register candidate = .error (.addressTaken candidate.address) ∨
        e.Respelled p.address candidate.address) := by
  have hcoherent : Coherent (after {} cs) := coherent_new.after cs
  refine ⟨?_, ?_, ?_, ?_⟩
  · intro i j p q e hp hq hne hpe hqe
    exact hcoherent.respelled hp hq hne hpe hqe
  · rintro i j p q e e' hp hq hne hpe hqe rfl
    exact hne (hcoherent.apart i j p q hp hq (hpe.trans hqe.symm))
  · intro candidate hreadable
    exact register_eq_addressTaken hreadable
  · intro id p candidate e hp hpe hcandidate
    by_cases haddress : p.address = candidate.address
    · have hreadable : (Endpoint.ofText? candidate.address).isSome := by rw [hcandidate]; rfl
      exact .inl ((register_eq_addressTaken hreadable).2 ⟨id, p, hp, haddress⟩)
    · exact .inr (Endpoint.respelled_of_ne hpe hcandidate haddress)

/-- One port is spelled in two ways. -/
def respelledChanges : List Change :=
  [.register ⟨none, "tcp://h:1", "a", []⟩, .register ⟨none, "tcp://h:01", "b", []⟩]

/-- Both registrations are granted, and both publishers have one endpoint. -/
theorem shared_respelledChanges :
    granted {} respelledChanges = respelledChanges ∧
    ∃ p q, (after {} respelledChanges).get? 0 = some p ∧ (after {} respelledChanges).get? 1 = some q ∧
      Endpoint.ofText? p.address = some ⟨"h", 1⟩ ∧ Endpoint.ofText? q.address = some ⟨"h", 1⟩ := by
  refine ⟨by decide +kernel, ⟨some 0, "tcp://h:1", "a", []⟩, ⟨some 1, "tcp://h:01", "b", []⟩, ?_⟩
  decide +kernel

end Registry

end TopicDirectory
