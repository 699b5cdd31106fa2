import TopicDirectory.Proofs.Service.Serving

/-!
# Moves that do not concern a client

Nobody but a client makes calls in its name, and nothing but the loop deals with them: what is dealt
with of a client's calls is its next request (`Tracks.deals_dispatch`).
-/

namespace TopicDirectory

namespace Service

theorem deals_eq_nil {es : List Event} (h : requests es = []) (i : Nat) : deals es i = [] := by
  apply List.filterMap_eq_nil_iff.2
  intro e he
  have hnone := List.filterMap_eq_nil_iff.1 h e he
  cases e with
  | dispatched t request reply => cases hnone
  | _ => rfl

theorem deals_act (s : Service) {i j : Nat} {f : Client → Link → Client × Link × List Event}
    (hf : OwnDoing j f) : deals (s.act j f).log i = deals s.log i := by
  rw [act]
  split
  · rename_i c p _ _
    rw [deals_append, deals_eq_nil (hf c p.link).2.1, List.append_nil]
  · rfl

theorem asks_act (s : Service) {i j : Nat} {f : Client → Link → Client × Link × List Event}
    (hf : OwnDoing j f) (hij : j ≠ i) : asks (s.act j f).log i = asks s.log i := by
  rw [act]
  split
  · rename_i c p _ _
    have hother : ∀ e ∈ (f c p.link).2.2, e.ticket.client ≠ i := fun e he => by
      rw [(hf c p.link).1 e he]
      exact hij
    rw [asks_append, (views_eq_nil hother).1, List.append_nil]
  · rfl

theorem log_serve (s : Service) (f : Exchange.Host → Option Exchange.Host) :
    (s.serve f).log = s.log := by
  rw [serve]
  split <;> rfl

/-- Nobody else makes calls in the name of a client. -/
theorem Moves.asks {s s' : Service} {m : Move} (hs : Moves s m s') {i : Nat}
    (hm : m.actor? ≠ some i) : asks s'.log i = asks s.log i := by
  cases hs with
  | join limit => rfl
  | @act _ j _ hactor hf =>
    have hij : j ≠ i := by
      rintro rfl
      exact hm hactor
    exact s.asks_act hf hij
  | serve => rw [log_serve]
  | dispatch =>
    rcases s.dispatch_cases with heq | ⟨-, j, request, rest, -, heq⟩
    · rw [heq]
    · rw [heq, asks_append, asks_dispatched, List.append_nil]
  | broadcast => rw [(sameCalls_broadcast s).log]
  | attend => rw [(sameCalls_attend s _).log]

/-- Requests are dealt with in the loop only. -/
theorem Moves.deals {s s' : Service} {m : Move} (hs : Moves s m s') (hm : m ≠ .dispatch) (i : Nat) :
    deals s'.log i = deals s.log i := by
  cases hs with
  | join limit => rfl
  | act _ hf => exact s.deals_act hf
  | serve => rw [log_serve]
  | dispatch => exact absurd rfl hm
  | broadcast => rw [(sameCalls_broadcast s).log]
  | attend => rw [(sameCalls_attend s _).log]

/-- What is dealt with of a client's is its next request. -/
theorem Tracks.deals_dispatch {s : Service} {i : Nat} (hs : Sane s) (h : Tracks s i) :
    deals s.dispatch.log i = deals s.log i ∨
      ∃ request, (asks s.log i)[(deals s.log i).length]? = some request ∧
        deals s.dispatch.log i = deals s.log i ++
          [(request, (Directory.dispatch s.server.state.registry request).reply.encode)] := by
  have horderly := (h.dispatch hs).orderly
  rcases s.dispatch_cases with heq | ⟨-, j, request, rest, -, heq⟩
  · rw [heq]
    exact .inl rfl
  · rw [heq] at horderly ⊢
    by_cases hij : j = i
    · subst hij
      obtain ⟨-, hasked⟩ := horderly.justified rfl
      have hdeals : deals [.dispatched ⟨j, (deals s.log j).length⟩ request
          (Directory.dispatch s.server.state.registry request).reply.encode] j
            = [(request, (Directory.dispatch s.server.state.registry request).reply.encode)] :=
        deals_dispatched ⟨j, (deals s.log j).length⟩ request _
      exact .inr ⟨request, hasked, by rw [deals_append, hdeals]⟩
    · have hother : (Event.dispatched ⟨j, (deals s.log j).length⟩ request
          (Directory.dispatch s.server.state.registry request).reply.encode).ticket.client ≠ i := hij
      have hnone : deals [.dispatched ⟨j, (deals s.log j).length⟩ request
          (Directory.dispatch s.server.state.registry request).reply.encode] i = [] :=
        (views_of_ne hother).2.1
      exact .inl (by rw [deals_append, hnone, List.append_nil])

/-- A client that has not joined yet has no conversation. -/
theorem Tracks.of_length_le {s : Service} {i : Nat} (hs : Sane s) (hi : s.clients.length ≤ i) :
    Tracks s i := by
  have hother : ∀ e ∈ s.log, e.ticket.client ≠ i := fun e he heq => by
    have hlt := hs.known e he
    omega
  refine ⟨Orderly.append_of_ne .nil hother, ?_⟩
  intro p c hp hc
  rw [List.getElem?_eq_none hi] at hc
  cases hc

end Service

end TopicDirectory
