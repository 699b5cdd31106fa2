import TopicDirectory.Client.Observer
import TopicDirectory.Proofs.Link.Stream
import TopicDirectory.Proofs.Wire.RoundTrip

/-!
# What a listener takes from a stream of snapshots

Snapshots are broadcast as pairs of frames, the label and the payload (`broadcasts`).  A listener at
such a stream takes one snapshot after the other, or stops (`Heard.next_broadcasts`), so what is kept
when the oldest snapshot of the stream is taken is kept however many are (`Listener.run_broadcasts`).
-/

namespace TopicDirectory.Client

/-- The bodies of the frames in which snapshots are broadcast. -/
def broadcasts (ss : List Snapshot) : List (List UInt8) :=
  ss.flatMap fun s => [Utf8.encode Directory.label, Wire.encodeSnapshot s]

theorem broadcasts_append (ss ts : List Snapshot) :
    broadcasts (ss ++ ts) = broadcasts ss ++ broadcasts ts :=
  List.flatMap_append

theorem broadcasts_eq_nil {ss : List Snapshot} (h : broadcasts ss = []) : ss = [] := by
  cases ss with
  | nil => rfl
  | cons s rest => cases h

theorem Heard.ofPayload_encodeSnapshot (s : Snapshot) :
    ofPayload (Wire.encodeSnapshot s) = snapshot s := by
  rw [ofPayload, Wire.decodeSnapshot_encodeSnapshot]

/-- What comes first where snapshots are broadcast is a label. -/
theorem broadcasts_eq_cons {ss : List Snapshot} {tail bodies : List (List UInt8)}
    {body : List UInt8} (htail : tail <+: [Utf8.encode Directory.label])
    (h : broadcasts ss ++ tail = body :: bodies) :
    body = Utf8.encode Directory.label ∧
      ((∃ s rest, ss = s :: rest ∧ bodies = Wire.encodeSnapshot s :: (broadcasts rest ++ tail)) ∨
        ss = [] ∧ bodies = []) := by
  cases ss with
  | nil =>
    obtain rfl : tail = body :: bodies := h
    obtain ⟨rfl, hbodies⟩ := List.cons_prefix_cons.1 htail
    exact ⟨rfl, .inr ⟨rfl, List.prefix_nil.1 hbodies⟩⟩
  | cons s rest =>
    obtain ⟨rfl, rfl⟩ := List.cons.inj h
    exact ⟨rfl, .inl ⟨s, rest, rfl, rfl⟩⟩

/-- From a stream of snapshots, which may be cut after a label, a listener takes the oldest one, or
nothing more. -/
theorem Heard.next_broadcasts {limit : Nat} {ss : List Snapshot} {tail : List (List UInt8)}
    {p q : Pipe} {heard : Heard} (htail : tail <+: [Utf8.encode Directory.label])
    (h : Frame.Stream (broadcasts ss ++ tail) p.unread) (hnext : next limit p = some (heard, q)) :
    (∃ s rest, ss = s :: rest ∧ heard = .snapshot s ∧
      Frame.Stream (broadcasts rest ++ tail) q.unread ∧ q.closed = p.closed) ∨
    (∃ fault, heard = .lost fault) := by
  cases hlabel : Frame.expect limit p with
  | none => simp [next, hlabel] at hnext
  | some found =>
    obtain ⟨result, p'⟩ := found
    rcases Frame.expect_stream h hlabel with ⟨body, bodies, hfirst, rfl, hrest, hclosed⟩ | ⟨fault, rfl⟩
    · obtain ⟨rfl, hbodies⟩ := broadcasts_eq_cons htail hfirst
      cases hpayload : Frame.expect limit p' with
      | none => simp [next, hlabel, hpayload] at hnext
      | some found =>
        obtain ⟨result, q'⟩ := found
        rcases Frame.expect_stream hrest hpayload with
          ⟨body, rest', rfl, rfl, hrest', hclosed'⟩ | ⟨fault, rfl⟩
        · rcases hbodies with ⟨s, rest, rfl, heq⟩ | ⟨-, heq⟩
          · obtain ⟨rfl, rfl⟩ := List.cons.inj heq
            simp [next, hlabel, hpayload, ofPayload_encodeSnapshot] at hnext
            obtain ⟨rfl, rfl⟩ := hnext
            exact .inl ⟨s, rest, rfl, rfl, hrest', hclosed'.trans hclosed⟩
          · cases heq
        · simp [next, hlabel, hpayload] at hnext
          exact .inr ⟨fault, hnext.1.symm⟩
    · simp [next, hlabel] at hnext
      exact .inr ⟨fault, hnext.1.symm⟩

namespace Listener

/-- The copy that is held after a snapshot was heard. -/
def newer (held s : Snapshot) : Snapshot := if held.generation < s.generation then s else held

theorem held_hear_snapshot (l : Listener) (s : Snapshot) :
    (l.hear (.snapshot s)).1 = { l with held := newer l.held s } := by
  rw [hear, newer]
  split <;> rfl

/-- A listener that has stopped takes nothing more. -/
theorem run_of_stopped (limit n : Nat) {l : Listener} (h : l.running = false) (p : Pipe) :
    run limit n l p = ((l, []), p) := by
  cases n with
  | zero => rfl
  | succ n =>
    rw [run, h]
    rfl

/-- Of the copy that is held and what is still in the stream, what one snapshot keeps a listener
keeps. -/
theorem run_broadcasts (limit : Nat) (keeps : Snapshot → List Snapshot → Prop)
    {tail : List (List UInt8)} (htail : tail <+: [Utf8.encode Directory.label])
    (hkeeps : ∀ held s rest, keeps held (s :: rest) → keeps (newer held s) rest) (n : Nat)
    {l : Listener} {p : Pipe} {ss : List Snapshot} (h : keeps l.held ss)
    (hstream : l.running = true → Frame.Stream (broadcasts ss ++ tail) p.unread) :
    ∃ rest, keeps (run limit n l p).1.1.held rest ∧
      ((run limit n l p).1.1.running = true →
        Frame.Stream (broadcasts rest ++ tail) (run limit n l p).2.unread ∧
          (run limit n l p).2.closed = p.closed) := by
  induction n generalizing l p ss with
  | zero => exact ⟨ss, h, fun hrunning => ⟨hstream hrunning, rfl⟩⟩
  | succ n ih =>
    rw [run]
    cases hrunning : l.running with
    | false => exact ⟨ss, h, fun hrunning' => absurd (hrunning.symm.trans hrunning') nofun⟩
    | true =>
      cases hnext : Heard.next limit p with
      | none => exact ⟨ss, h, fun _ => ⟨hstream hrunning, rfl⟩⟩
      | some found =>
        obtain ⟨heard, q⟩ := found
        rcases Heard.next_broadcasts htail (hstream hrunning) hnext with
          ⟨s, rest, rfl, rfl, hrest, hclosed⟩ | ⟨fault, rfl⟩
        · have hheld := held_hear_snapshot l s
          have hkept : keeps (l.hear (.snapshot s)).1.held rest := by
            rw [hheld]
            exact hkeeps l.held s rest h
          obtain ⟨rest', hkept', hstream'⟩ := ih (p := q) hkept fun _ => hrest
          exact ⟨rest', hkept', fun hrunning' => ⟨(hstream' hrunning').1,
            (hstream' hrunning').2.trans hclosed⟩⟩
        · -- the listener stops, and what is left in the stream no longer matters
          have hstopped : (l.hear (.lost fault)).1.running = false := rfl
          have hrun := run_of_stopped limit n hstopped q
          refine ⟨ss, ?_, ?_⟩
          · show keeps (run limit n (l.hear (.lost fault)).1 q).1.1.held ss
            rw [hrun]
            exact h
          · intro hrunning'
            have hrunning'' : (run limit n (l.hear (.lost fault)).1 q).1.1.running = true := hrunning'
            rw [hrun] at hrunning''
            cases hrunning''

/-- The copy that is held is never replaced by an older one. -/
theorem generation_le_run (limit n : Nat) (l : Listener) (p : Pipe) :
    l.held.generation ≤ (run limit n l p).1.1.held.generation := by
  induction n generalizing l p with
  | zero => exact UInt64.le_refl _
  | succ n ih =>
    rw [run]
    split
    · split
      · exact UInt64.le_refl _
      · rename_i heard q _
        have hheld : l.held.generation ≤ (l.hear heard).1.held.generation := by
          cases heard with
          | snapshot s =>
            rw [held_hear_snapshot, newer]
            split
            · rename_i hlt
              exact UInt64.le_of_lt hlt
            · exact UInt64.le_refl _
          | _ => exact UInt64.le_refl _
        exact UInt64.le_trans hheld (ih (l.hear heard).1 q)
    · exact UInt64.le_refl _

end Listener

end TopicDirectory.Client
