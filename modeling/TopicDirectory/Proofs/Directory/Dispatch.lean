import TopicDirectory.Directory.Server
import TopicDirectory.Proofs.Registry.History
import TopicDirectory.Proofs.Wire.Reading

/-!
# What a frame comes to

A frame asks for a snapshot and gets the current one, or it is refused and changes nothing, or the
change it asks for is granted (`dispatch_cases`).  With each change the generation grows by one.
-/

namespace TopicDirectory

/-- The values that say what became of a change that was asked for. -/
inductive Wire.Verdict : Value → Prop
  | registration (r : RegisterReply) : Verdict r.toValue
  | status (r : StatusReply) : Verdict r.toValue

theorem Registry.generation_of_grant? {r s : Registry} {c : Change} (h : r.grant? c = some s) :
    s.generation = r.generation + 1 := by
  rcases grant?_cases h with ⟨candidate, rfl, hr⟩ | ⟨id, p, rfl, hr⟩ | ⟨id, topics, rfl, hr⟩
  · obtain ⟨-, -, -, -, rfl⟩ := register_eq_ok.1 hr
    rfl
  · obtain ⟨-, rfl⟩ := deregister_eq_ok.1 hr
    rfl
  · obtain ⟨-, rfl⟩ := setTopics_eq_ok.1 hr
    rfl

namespace Directory

open Registry (Change)
open Wire (Command Verdict)

/-- What is said and done about a change that was asked for. -/
inductive Settles (r : Registry) : Outcome → Prop
  | refused {v : Wire.Value} (hv : Verdict v) : Settles r ⟨v, none⟩
  | granted {v : Wire.Value} {c : Change} {s : Registry} (hv : Verdict v)
    (hs : r.grant? c = some s) : Settles r ⟨v, some s⟩

theorem settles_carryOut (r : Registry) {c : Command} (hc : c ≠ .snapshot) :
    Settles r (carryOut r c) := by
  cases c with
  | register candidate =>
    rw [carryOut]
    cases hr : r.register candidate with
    | error e => exact .refused (.registration _)
    | ok a =>
      have hgrant : r.grant? (.register candidate) = some a.2 := by rw [Registry.grant?, hr]; rfl
      exact .granted (.registration _) hgrant
  | deregister id =>
    rw [carryOut]
    cases hr : r.deregister id with
    | error e => exact .refused (.status _)
    | ok a =>
      have hgrant : r.grant? (.deregister id) = some a.2 := by rw [Registry.grant?, hr]; rfl
      exact .granted (.status _) hgrant
  | snapshot => exact absurd rfl hc
  | setTopics id topics =>
    rw [carryOut]
    cases hr : r.setTopics id topics with
    | error e => exact .refused (.status _)
    | ok s =>
      have hgrant : r.grant? (.setTopics id topics) = some s := by rw [Registry.grant?, hr]; rfl
      exact .granted (.status _) hgrant

theorem verdict_unreadable (header : Option UInt8) (fault : Wire.Fault) :
    Verdict (unreadable header fault) := by
  rw [unreadable.eq_def]
  split
  · exact .status _
  · exact .status _
  · split
    · exact .registration _
    · split
      · exact .status _
      · split <;> exact .status _

/-- What a frame can come to. -/
theorem dispatch_cases (r : Registry) (frame : List UInt8) :
    (frame.head? = some 0x03 ∧ dispatch r frame = ⟨.directory r.snapshot, none⟩) ∨
      Settles r (dispatch r frame) := by
  rw [dispatch]
  cases hdecode : Command.decode frame with
  | error fault => exact .inr (.refused (verdict_unreadable _ _))
  | ok c =>
    by_cases hc : c = .snapshot
    · subst hc
      exact .inl ⟨Command.head?_of_decode hdecode, rfl⟩
    · exact .inr (settles_carryOut r hc)

/-- A frame leaves the registry as it is, or the registry grants a change. -/
theorem dispatch_granted (r : Registry) (frame : List UInt8) :
    ((dispatch r frame).changed = none ∧ (dispatch r frame).registry r = r) ∨
      ∃ c s, (dispatch r frame).changed = some s ∧ (dispatch r frame).registry r = s ∧
        r.grant? c = some s := by
  rcases dispatch_cases r frame with ⟨-, heq⟩ | hsettles
  · rw [heq]
    exact .inl ⟨rfl, rfl⟩
  · generalize dispatch r frame = o at hsettles
    cases hsettles with
    | refused => exact .inl ⟨rfl, rfl⟩
    | granted _ hs => exact .inr ⟨_, _, rfl, rfl, hs⟩

/-- A frame leaves the registry as it is, or one change is made. -/
theorem dispatch_registry (r : Registry) (frame : List UInt8) :
    ((dispatch r frame).changed = none ∧ (dispatch r frame).registry r = r) ∨
      ∃ s, (dispatch r frame).changed = some s ∧ (dispatch r frame).registry r = s ∧
        s.generation = r.generation + 1 := by
  rcases dispatch_granted r frame with hsame | ⟨c, s, hchanged, hs, hc⟩
  · exact .inl hsame
  · exact .inr ⟨s, hchanged, hs, Registry.generation_of_grant? hc⟩

@[simp] theorem registry_respond (s : State) (request : List UInt8) :
    (respond s request).2.registry = (dispatch s.registry request).registry s.registry := by
  rw [respond, Outcome.registry]
  cases (dispatch s.registry request).changed <;> rfl

end Directory

end TopicDirectory
