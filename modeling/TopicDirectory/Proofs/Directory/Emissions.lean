import TopicDirectory.Proofs.Directory.Generations
import TopicDirectory.Proofs.Wire.RoundTrip

/-!
# The snapshots that a directory emits

A snapshot leaves the loop of a directory as the answer to a request, as a message that is put on the
feed, or for those who run the directory (`Emission`).  What leaves is read off what the loop does:
off the octets of its answer, off what its feed then keeps for somebody who is attached
(`State.airs`), and off what can be seen of the directory after the request.

What the loop does in dealing with one request is said once (`deals_respond`).  Whatever is requested,
the snapshots leave in the order in which the registry had them (`pairwise_course`), and the
broadcasts count its changes (`broadcasts_course`), by induction on the requests.
-/

namespace TopicDirectory.Directory

/-! ## Emissions -/

/-- A snapshot that leaves the loop. -/
inductive Emission
  /-- It is the answer to a request. -/
  | answered (s : Snapshot)
  /-- It is broadcast. -/
  | broadcast (s : Snapshot)
  /-- Those who run the directory can see it. -/
  | published (s : Snapshot)
deriving DecidableEq

namespace Emission

/-- The snapshot that leaves. -/
def snapshot : Emission → Snapshot
  | answered s => s
  | broadcast s => s
  | published s => s

/-- The snapshot that is broadcast, if one is. -/
def broadcast? : Emission → Option Snapshot
  | broadcast s => some s
  | _ => none

end Emission

/-- The snapshot that an answer carries, if it carries one. -/
def carried (a : Exchange.Answer) : Option Snapshot :=
  match a with
  | .reply octets => (Wire.decodeSnapshot octets).toOption
  | _ => none

/-- The snapshot that a message tells those who are attached to the feed, if it tells one. -/
def told (m : Message) : Option Snapshot :=
  if m.label = label then (Wire.decodeSnapshot m.payload).toOption else none

/-- A feed to which somebody is attached for every label, with room for `2 ^ 64` messages. -/
def tap : Feed :=
  { limit := 0, capacity := UInt64.size, attachments := [{ phase := .attached [""] }] }

namespace State

/-- The loop with another feed. -/
def withFeed (s : State) (f : Feed) : State := { s with broadcaster.feed := f }

/-- The messages that the loop puts on its feed in dealing with a request: those that are then kept
for somebody who is attached.  They are the same whatever the feed is (`feed_respond`). -/
def airs (s : State) (request : List UInt8) : List Message :=
  (respond (s.withFeed tap) request).2.broadcaster.feed.attachments.flatMap (·.backlog)

/-- What the loop emits in dealing with a request: what is said to the one who made the request and
what is said to everybody, and what can be seen of the directory from then on. -/
def emits (s : State) (request : List UInt8) : List Emission :=
  ((carried (respond s request).1).map .answered).toList
    ++ ((s.airs request).filterMap told).map .broadcast
    ++ [.published (respond s request).2.published]

/-- What the loop owns after some requests. -/
def after (s : State) (requests : List (List UInt8)) : State :=
  requests.foldl (fun s request => (respond s request).2) s

/-- What the loop emits in dealing with requests one after the other. -/
def course (s : State) : List (List UInt8) → List Emission
  | [] => []
  | request :: requests => s.emits request ++ (respond s request).2.course requests

/-- What the loop emits, with the snapshot that can be seen before the first request. -/
def emissions (s : State) (requests : List (List UInt8)) : List Emission :=
  .published s.published :: s.course requests

end State

/-! ## One request -/

/-- What the loop puts on its feed in dealing with a request, whatever the feed is and whoever is
attached: the snapshot of a change, in one message. -/
theorem feed_respond (s : State) (f : Feed) (request : List UInt8) :
    (respond (s.withFeed f) request).2.broadcaster.feed
      = ((dispatch s.registry request).changed.map Registry.snapshot).toList.foldl
          (fun f x => (f.send ⟨label, Wire.encodeSnapshot x⟩).2) f := by
  show (respond { s with broadcaster.feed := f } request).2.broadcaster.feed = _
  rw [respond]
  cases (dispatch s.registry request).changed <;> rfl

theorem backlog_tap (m : Message) : (tap.send m).2.attachments.flatMap (·.backlog) = [m] := by
  simp [tap, Feed.send, Feed.Attachment.counts, Feed.keepLast, UInt64.size]

theorem airs_eq (s : State) (request : List UInt8) :
    s.airs request
      = ((dispatch s.registry request).changed.map Registry.snapshot).toList.map
          fun x => ⟨label, Wire.encodeSnapshot x⟩ := by
  rw [State.airs, feed_respond]
  cases (dispatch s.registry request).changed with
  | none => rfl
  | some r => exact backlog_tap _

/-- The feed makes no difference to anything else that the loop owns. -/
theorem respond_withFeed (s : State) (f : Feed) (request : List UInt8) :
    (respond (s.withFeed f) request).2
      = (respond s request).2.withFeed (respond (s.withFeed f) request).2.broadcaster.feed := by
  show (respond { s with broadcaster.feed := f } request).2
    = (respond s request).2.withFeed
        (respond { s with broadcaster.feed := f } request).2.broadcaster.feed
  rw [respond, respond]
  cases (dispatch s.registry request).changed <;> rfl

/-- The feed makes no difference to what the loop emits. -/
theorem emits_withFeed (s : State) (f : Feed) (request : List UInt8) :
    (s.withFeed f).emits request = s.emits request := by
  have hairs : (s.withFeed f).airs request = s.airs request := rfl
  rw [State.emits, State.emits, hairs, respond_withFeed]
  rfl

/-- What the loop emits and owns after a request: the request is refused, or it is answered by the
current snapshot, or one change is made. -/
inductive Deals (s : State) (request : List UInt8) : List Emission → State → Prop
  | refused (h : (dispatch s.registry request).changed = none) :
    Deals s request [.published s.published] s
  | answered (h : (dispatch s.registry request).changed = none) :
    Deals s request [.answered s.registry.snapshot, .published s.published] s
  | changed {r : Registry} (h : (dispatch s.registry request).changed = some r)
    (hgeneration : r.generation = s.registry.generation + 1) :
    Deals s request [.broadcast r.snapshot, .published r.snapshot]
      { registry := r
        broadcaster := (s.broadcaster.publish r.snapshot).2
        published := r.snapshot }

/-- What says what became of a change carries no snapshot. -/
theorem carried_verdict {v : Wire.Value} (h : Wire.Verdict v) :
    carried (.reply v.encode) = none := by
  rw [carried, Wire.decodeSnapshot, Wire.Value.decode_encode]
  cases h with
  | registration r => cases r <;> rfl
  | status r => cases r <;> rfl

theorem carried_directory (x : Snapshot) :
    carried (.reply (Wire.Value.directory x).encode) = some x := by
  rw [carried, Wire.decodeSnapshot, Wire.Value.decode_encode]
  rfl

theorem told_encodeSnapshot (x : Snapshot) : told ⟨label, Wire.encodeSnapshot x⟩ = some x := by
  rw [told, if_pos rfl, Wire.decodeSnapshot_encodeSnapshot]
  rfl

theorem filterMap_told_airs (s : State) (request : List UInt8) :
    (s.airs request).filterMap told
      = ((dispatch s.registry request).changed.map Registry.snapshot).toList := by
  rw [airs_eq]
  generalize ((dispatch s.registry request).changed.map Registry.snapshot).toList = xs
  induction xs with
  | nil => rfl
  | cons x xs ih => rw [List.map_cons, List.filterMap_cons_some (told_encodeSnapshot x), ih]

/-- What is broadcast in dealing with a request is the snapshot of the change. -/
theorem broadcasts_emits (s : State) (request : List UInt8) :
    (s.emits request).filterMap Emission.broadcast?
      = ((dispatch s.registry request).changed.map Registry.snapshot).toList := by
  have hanswered (o : Option Snapshot) :
      (o.map Emission.answered).toList.filterMap Emission.broadcast? = [] := by
    cases o <;> rfl
  have hbroadcast : Emission.broadcast? ∘ Emission.broadcast = some := rfl
  rw [State.emits, List.filterMap_append, List.filterMap_append, hanswered, List.filterMap_map,
    hbroadcast, List.filterMap_some, filterMap_told_airs]
  exact List.append_nil _

theorem deals_respond (s : State) (request : List UInt8) :
    Deals s request (s.emits request) (respond s request).2 := by
  rw [State.emits, filterMap_told_airs, respond]
  rcases dispatch_cases s.registry request with ⟨-, heq⟩ | hsettles
  · have hchanged : (dispatch s.registry request).changed = none := by rw [heq]
    rw [heq, carried_directory]
    exact .answered hchanged
  · cases hdispatch : dispatch s.registry request with
    | mk v changed =>
      have hchanged : (dispatch s.registry request).changed = changed := by rw [hdispatch]
      rw [hdispatch] at hsettles
      cases hsettles with
      | refused hv =>
        rw [carried_verdict hv]
        exact .refused hchanged
      | granted hv hs =>
        rw [carried_verdict hv]
        exact .changed hchanged (Registry.generation_of_grant? hs)

/-- Those who run the directory see the current snapshot. -/
theorem published_respond {s : State} (hs : s.published = s.registry.snapshot)
    (request : List UInt8) :
    (respond s request).2.published = (respond s request).2.registry.snapshot := by
  have hdeals := deals_respond s request
  generalize s.emits request = es at hdeals
  generalize (respond s request).2 = s' at hdeals ⊢
  cases hdeals with
  | refused hchanged => exact hs
  | answered hchanged => exact hs
  | changed hchanged hgeneration => rfl

/-- A request emits nothing but the snapshot that it leaves behind. -/
theorem snapshot_of_mem_emits {s : State} (hs : s.published = s.registry.snapshot)
    {request : List UInt8} {e : Emission} (h : e ∈ s.emits request) :
    e.snapshot = (respond s request).2.registry.snapshot := by
  have hdeals := deals_respond s request
  revert hdeals h
  generalize s.emits request = es
  generalize (respond s request).2 = s'
  intro h hdeals
  cases hdeals with
  | refused hchanged =>
    obtain rfl := List.mem_singleton.1 h
    exact hs
  | answered hchanged =>
    rcases List.mem_pair.1 h with rfl | rfl
    · rfl
    · exact hs
  | changed hchanged hgeneration =>
    rcases List.mem_pair.1 h with rfl | rfl <;> rfl

/-! ## Many requests -/

theorem course_append (s : State) (requests more : List (List UInt8)) :
    s.course (requests ++ more) = s.course requests ++ (s.after requests).course more := by
  induction requests generalizing s with
  | nil => rfl
  | cons request requests ih =>
    rw [List.cons_append, State.course, ih, State.course, List.append_assoc]
    rfl

/-- One more request is dealt with. -/
theorem emissions_concat (s : State) (requests : List (List UInt8)) (request : List UInt8) :
    s.emissions (requests ++ [request])
      = s.emissions requests ++ (s.after requests).emits request := by
  rw [State.emissions, State.emissions, course_append, State.course, State.course, List.append_nil,
    List.cons_append]

theorem after_concat (s : State) (requests : List (List UInt8)) (request : List UInt8) :
    s.after (requests ++ [request]) = (respond (s.after requests) request).2 := by
  rw [State.after, List.foldl_append]
  rfl

theorem changes_cons (s : State) (request : List UInt8) (requests : List (List UInt8)) :
    s.registry.changes (request :: requests)
      = s.registry.changes [request] + (respond s request).2.registry.changes requests := by
  rw [registry_respond]
  exact Registry.changes_append s.registry [request] requests

/-- The changes of a run are those that were made and those that are to come. -/
theorem changes_respond {s : State} {request : List UInt8} {requests : List (List UInt8)}
    (h : s.registry.generation.toNat + s.registry.changes (request :: requests) < UInt64.size) :
    (respond s request).2.registry.generation.toNat
        + (respond s request).2.registry.changes requests
      = s.registry.generation.toNat + s.registry.changes (request :: requests) := by
  have hcons := changes_cons s request requests
  have hcount : (respond s request).2.registry.generation.toNat
      = s.registry.generation.toNat + s.registry.changes [request] := by
    rw [registry_respond]
    exact @Registry.generation_fed s.registry [request] (by omega)
  omega

/-- The current snapshot leads to every one that is emitted. -/
theorem leadsTo_of_mem_course {s : State} (hs : s.published = s.registry.snapshot)
    {requests : List (List UInt8)} {e : Emission}
    (h : s.registry.generation.toNat + s.registry.changes requests < UInt64.size)
    (he : e ∈ s.course requests) : s.registry.snapshot.LeadsTo e.snapshot := by
  induction requests generalizing s with
  | nil => cases he
  | cons request requests ih =>
    have hcons := changes_cons s request requests
    have hnext : s.registry.snapshot.LeadsTo (respond s request).2.registry.snapshot := by
      rw [registry_respond]
      exact @Registry.snapshot_leadsTo_fed s.registry [request] (by omega)
    rcases List.mem_append.1 he with he | he
    · rw [snapshot_of_mem_emits hs he]
      exact hnext
    · exact hnext.trans (ih (published_respond hs request) (changes_respond h ▸ h) he)

/-- The snapshots are emitted in the order in which the registry had them. -/
theorem pairwise_course {s : State} (hs : s.published = s.registry.snapshot)
    {requests : List (List UInt8)}
    (h : s.registry.generation.toNat + s.registry.changes requests < UInt64.size) :
    (s.course requests).Pairwise fun e e' => e.snapshot.LeadsTo e'.snapshot := by
  induction requests generalizing s with
  | nil => exact .nil
  | cons request requests ih =>
    have hnext := published_respond hs request
    have hrest := changes_respond h ▸ h
    rw [State.course]
    refine List.pairwise_append.2 ⟨?_, ih hnext hrest, fun e he e' he' => ?_⟩
    · refine List.pairwise_of_forall_mem_list fun e he e' he' => ?_
      rw [snapshot_of_mem_emits hs he, snapshot_of_mem_emits hs he']
      exact Snapshot.leadsTo_refl _
    · rw [snapshot_of_mem_emits hs he]
      exact leadsTo_of_mem_course hnext hrest he'

/-- The generations of the broadcasts go up by one from the one that follows the current one. -/
theorem broadcasts_course {s : State} {requests : List (List UInt8)}
    (h : s.registry.generation.toNat + s.registry.changes requests < UInt64.size) :
    ((s.course requests).filterMap Emission.broadcast?).map (·.generation.toNat)
      = List.range' (s.registry.generation.toNat + 1) (s.registry.changes requests) := by
  induction requests generalizing s with
  | nil => rfl
  | cons request requests ih =>
    have hrest := changes_respond h
    have hnext := ih (hrest ▸ h)
    have hchanges : s.registry.changes (request :: requests)
        = (if (dispatch s.registry request).changed.isSome then 1 else 0)
          + ((dispatch s.registry request).registry s.registry).changes requests := rfl
    have hdeals := deals_respond s request
    rw [State.course, List.filterMap_append, List.map_append, hnext]
    generalize s.emits request = es at hdeals
    generalize (respond s request).2 = s' at hdeals hrest
    cases hdeals with
    | refused hchanged =>
      rw [Nat.add_left_cancel hrest]
      rfl
    | answered hchanged =>
      rw [Nat.add_left_cancel hrest]
      rfl
    | @changed r hchanged hgeneration =>
      rw [hchanged] at hchanges
      have hsucc : r.generation.toNat = s.registry.generation.toNat + 1 := by
        rw [hgeneration]
        exact Registry.toNat_add_one (by simp only [Option.isSome_some, if_true] at hchanges; omega)
      have hcount : s.registry.changes (request :: requests) = r.changes requests + 1 := by
        have hsum : r.generation.toNat + r.changes requests
            = s.registry.generation.toNat + s.registry.changes (request :: requests) := hrest
        omega
      rw [hcount, List.range'_succ, ← hsucc]
      rfl

/-- Of two snapshots that are emitted, one leads to the other. -/
theorem leadsTo_total {es : List Emission}
    (h : es.Pairwise fun e e' => e.snapshot.LeadsTo e'.snapshot) {e e' : Emission} (he : e ∈ es)
    (he' : e' ∈ es) : e.snapshot.LeadsTo e'.snapshot ∨ e'.snapshot.LeadsTo e.snapshot := by
  induction h with
  | nil => cases he
  | cons hfirst hrest ih =>
    rcases List.mem_cons.1 he with rfl | hmem <;> rcases List.mem_cons.1 he' with rfl | hmem'
    · exact .inl (Snapshot.leadsTo_refl _)
    · exact .inl (hfirst _ hmem')
    · exact .inr (hfirst _ hmem)
    · exact ih hmem hmem'

/-- A generation names one snapshot. -/
theorem snapshot_eq_of_generation_eq {es : List Emission}
    (h : es.Pairwise fun e e' => e.snapshot.LeadsTo e'.snapshot) {e e' : Emission} (he : e ∈ es)
    (he' : e' ∈ es) (hsame : e.snapshot.generation = e'.snapshot.generation) :
    e.snapshot = e'.snapshot := by
  have hleads := Snapshot.leadsTo_of_le (leadsTo_total h he he') (UInt64.le_of_eq hsame)
  exact (hleads.2 (UInt64.le_of_eq hsame.symm)).symm

end TopicDirectory.Directory
