import TopicDirectory.Proofs.Client.Calls
import TopicDirectory.Proofs.Service.History
import TopicDirectory.Proofs.Service.Ledger

/-!
# Asking for the current snapshot

A client that asks the directory for its snapshot, and for nothing else (`Asking`).  The directory
answers with the snapshot that is current when it deals with the request, and that is the answer that
the client gets, whatever is done in between.
-/

namespace TopicDirectory

open Client (Call)

/-- What is asked for is answered with the current snapshot. -/
theorem Directory.dispatch_snapshot (r : Registry) :
    (dispatch r Call.snapshot.request).reply.encode = Wire.encodeSnapshot r.snapshot := by
  show (dispatch r Wire.Command.snapshot.encode).reply.encode = _
  rw [dispatch_encode]
  rfl

namespace Service

/-- A client that has asked for the current snapshot if it has asked for anything, and the snapshot
with which the directory has answered. -/
structure Asking (s : Service) (i : Nat) (posted : Bool) (copy? : Option Snapshot) : Prop where
  tracks : Tracks s i
  known : i < s.clients.length
  asked : asks s.log i = if posted then [Call.snapshot.request] else []
  dealt : deals s.log i = copy?.toList.map fun x => (Call.snapshot.request, Wire.encodeSnapshot x)

theorem Grows.lt_length {s s' : Service} (h : Grows s s') {i : Nat} (hi : i < s.clients.length) :
    i < s'.clients.length := by
  obtain ⟨d, hd, -⟩ := h.clients i _ (List.getElem?_eq_getElem hi)
  obtain ⟨hi', -⟩ := List.getElem?_eq_some_iff.1 hd
  exact hi'

theorem length_request : Call.snapshot.request.length < UInt32.size := by decide +kernel

theorem Asking.framed {s : Service} {i : Nat} {posted : Bool} {copy? : Option Snapshot}
    (h : Asking s i posted copy?)
    (hsound : ∀ x, copy? = some x → Frame.Sound s.server.host.limit (Wire.encodeSnapshot x)) :
    Framed s i := by
  refine fun c _ => ⟨fun request hrequest _ => ?_, fun d hd => ?_⟩
  · rw [h.asked] at hrequest
    cases posted with
    | false => cases hrequest
    | true =>
      rw [List.mem_singleton.1 hrequest]
      exact length_request
  · rw [h.dealt] at hd
    obtain ⟨x, hx, rfl⟩ := List.mem_map.1 hd
    exact hsound x (Option.mem_toList.1 hx)

/-- A client that has just connected has not asked for anything. -/
theorem asking_join {s : Service} (hs : Sane s) (limit : Nat) :
    Asking (s.step (.join limit)) s.clients.length false none := by
  have h := ledger_join hs limit
  obtain ⟨hknown, -⟩ := List.getElem?_eq_some_iff.1 h.client
  exact ⟨h.tracks, hknown, h.asked, h.dealt⟩

/-- Before it asks, a client is not waiting. -/
theorem Asking.idle {s : Service} {i : Nat} {copy? : Option Snapshot} {c : Client} (hs : Sane s)
    (h : Asking s i false copy?) (hc : s.clients[i]? = some c) : c.waiting = false := by
  obtain ⟨p, hp⟩ : ∃ p, s.server.host.peers[i]? = some p :=
    ⟨_, List.getElem?_eq_getElem (hs.length ▸ h.known)⟩
  have hconversation := h.tracks.conversation p c hp hc
  rw [h.asked] at hconversation
  cases hbroken : c.caller.broken with
  | true => exact hconversation.finished hbroken
  | false =>
    have hturn := hconversation.turn hbroken
    cases hwaiting : c.waiting with
    | false => rfl
    | true =>
      rw [hwaiting] at hturn
      cases hturn

theorem Asking.ask {s : Service} {i : Nat} (hs : Sane s) (h : Asking s i false none) :
    Asking (s.step (.issue i Call.snapshot.request)) i true none := by
  have hi := h.known
  have hc : s.clients[i]? = some s.clients[i] := List.getElem?_eq_getElem hi
  refine ⟨h.tracks.step hs (h.framed nofun) ?_, (s.grows_step _).lt_length h.known, ?_, ?_⟩
  · intro request heq c _ _ _
    obtain ⟨-, rfl⟩ := Move.issue.inj heq
    exact length_request
  · rw [hs.asks_issue hc (h.idle hs hc), h.asked]
    rfl
  · have hne : Move.issue i Call.snapshot.request ≠ .dispatch := nofun
    exact ((s.moves_step _).deals hne i).trans h.dealt

/-- Whatever the others do, the client has asked for no more than it had, and the answer is the
current snapshot if it was not given before. -/
theorem Asking.step {s : Service} {i : Nat} {posted : Bool} {copy? : Option Snapshot} (hs : Sane s)
    (h : Asking s i posted copy?)
    (hsound : ∀ x, copy? = some x → Frame.Sound s.server.host.limit (Wire.encodeSnapshot x))
    {m : Move} (hm : m.actor? ≠ some i) :
    Asking (s.step m) i posted copy? ∨
      posted = true ∧ copy? = none ∧ Asking (s.step m) i true (some s.current) := by
  have htracks : Tracks (s.step m) i := by
    refine h.tracks.step hs (h.framed hsound) ?_
    rintro request rfl
    exact absurd rfl hm
  have hknown := (s.grows_step m).lt_length h.known
  have hasked := ((s.moves_step m).asks hm).trans h.asked
  by_cases hdispatch : m = .dispatch
  · subst hdispatch
    rcases h.tracks.deals_dispatch hs with hsame | ⟨request, hrequest, hnew⟩
    · exact .inl ⟨htracks, hknown, hasked, hsame.trans h.dealt⟩
    · rw [h.asked, h.dealt] at hrequest
      cases posted with
      | false => cases hrequest
      | true =>
        cases copy? with
        | some x => cases hrequest
        | none =>
          obtain rfl : Call.snapshot.request = request := Option.some.inj hrequest
          refine .inr ⟨rfl, rfl, htracks, hknown, hasked, ?_⟩
          rw [h.dealt, Directory.dispatch_snapshot] at hnew
          exact hnew
  · exact .inl ⟨htracks, hknown, hasked, ((s.moves_step m).deals hdispatch i).trans h.dealt⟩

/-- The answer that the client gets is the one that the directory gave. -/
theorem Asking.collect {s : Service} {i : Nat} {posted : Bool} {copy? : Option Snapshot}
    {c : Client} {p : Exchange.Peer} {reply : List UInt8} (h : Asking s i posted copy?)
    (hc : s.clients[i]? = some c) (hp : s.server.host.peers[i]? = some p)
    (hwaiting : c.waiting = true) (hreply : (c.caller.collect p.link).1 = .ok reply) :
    ∃ x, copy? = some x ∧ Call.snapshot.result (.ok reply) = .ok x := by
  have hconversation := h.tracks.conversation p c hp hc
  rcases c.caller.collect_cases p.link with ⟨fault, rest, heq⟩ | ⟨reply', rest, hexpect, heq⟩
  · rw [heq] at hreply
    cases hreply
  · rw [heq] at hreply
    obtain rfl := Except.ok.inj hreply
    obtain ⟨-, -, request, hdealt⟩ := hconversation.collect hwaiting hexpect
    have hmem := List.mem_of_getElem? hdealt
    rw [h.dealt] at hmem
    obtain ⟨x, hx, heq⟩ := List.mem_map.1 hmem
    refine ⟨x, Option.mem_toList.1 hx, ?_⟩
    have hanswer : Call.snapshot.answer (Wire.encodeSnapshot x) = .ok x :=
      Wire.decodeSnapshot_encodeSnapshot x
    rw [← (Prod.mk.inj heq).2, Call.result]
    simp only [hanswer]

end Service

end TopicDirectory
