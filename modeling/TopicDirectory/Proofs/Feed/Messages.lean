import TopicDirectory.Proofs.Feed.Steps
import TopicDirectory.Proofs.Link.Reading

/-!
# The frames of messages

A message goes out as two frames, its label and its payload, as far as these are within the limit of
the feed (`Message.forward_written`).  A guest that receives a message takes the two frames at the
front of what has come (`Subscription.receive_eq_ok`), and fails only when nothing more comes or a
frame is too large (`Subscription.receive_eq_error`).

A frame that is too large is not passed over: only its length is taken out, so that the next frame is
read from inside of a message.  A message whose payload is the frames of another one thus makes a
guest receive the other one (`Subscription.receive_nested`).
-/

namespace TopicDirectory

open Link (Fault)

namespace Message

/-- The bodies of the frames of a message. -/
def bodies (m : Message) : List (List UInt8) := [Utf8.encode m.label, m.payload]

/-- The octets of a message. -/
def octets (m : Message) : List UInt8 := m.bodies.flatMap Frame.encode

/-- The bodies of the frames that a feed writes of a message: it stops at one over its limit. -/
def written (limit : Nat) (m : Message) : List (List UInt8) :=
  m.bodies.takeWhile fun b => b.length ≤ limit

/-- Whether what a feed writes of a message can be read again: the four octets of a frame's length
hold the lengths. -/
def Sound (limit : Nat) (m : Message) : Prop := ∀ b ∈ m.written limit, b.length < UInt32.size

instance (limit : Nat) (m : Message) : Decidable (m.Sound limit) :=
  inferInstanceAs (Decidable (∀ b ∈ m.written limit, b.length < UInt32.size))

/-- Whether a guest with a limit of its own takes every frame that a feed writes of a message. -/
def Fits (limit reading : Nat) (m : Message) : Prop := ∀ b ∈ m.written limit, b.length ≤ reading

instance (limit reading : Nat) (m : Message) : Decidable (m.Fits limit reading) :=
  inferInstanceAs (Decidable (∀ b ∈ m.written limit, b.length ≤ reading))

theorem octets_eq (m : Message) :
    m.octets = Frame.encode (Utf8.encode m.label) ++ Frame.encode m.payload := by
  simp [octets, bodies]

theorem stream_written {limit : Nat} {m : Message} (h : m.Sound limit) :
    Frame.Stream (m.written limit) ((m.written limit).flatMap Frame.encode) :=
  ⟨rfl, h⟩

/-- A feed writes both frames of a message, or the label alone, or nothing, and says whether it wrote
both. -/
theorem forward_written (limit : Nat) (m : Message) :
    (m.written limit = m.bodies ∨ m.written limit = [Utf8.encode m.label] ∨ m.written limit = []) ∧
      (Feed.forward limit m).1 = (m.written limit).flatMap Frame.encode ∧
      ((Feed.forward limit m).2 = true → m.written limit = m.bodies) := by
  rcases Feed.forward_cases limit m with
    ⟨hlabel, hpayload, hforward⟩ | ⟨hlabel, hpayload, hforward⟩ | ⟨hlabel, hforward⟩
  · have hwritten : m.written limit = m.bodies := by simp [written, bodies, hlabel, hpayload]
    rw [hforward, hwritten]
    exact ⟨.inl rfl, (octets_eq m).symm, fun _ => rfl⟩
  · have hwritten : m.written limit = [Utf8.encode m.label] := by
      simp [written, bodies, hlabel, Nat.not_le.2 hpayload]
    rw [hforward, hwritten]
    exact ⟨.inr (.inl rfl), by simp, fun h => absurd h Bool.false_ne_true⟩
  · have hwritten : m.written limit = [] := by simp [written, bodies, Nat.not_le.2 hlabel]
    rw [hforward, hwritten]
    exact ⟨.inr (.inr rfl), rfl, fun h => absurd h Bool.false_ne_true⟩

end Message

namespace Subscription

/-- A message that is received was at the front of what had come. -/
theorem receive_eq_ok {limit : Nat} {p q : Pipe} {m : Message}
    (h : receive limit p = some (.ok m, q)) :
    ∃ label before, m.label = Utf8.decodeLossy label ∧ Frame.Stream [label, m.payload] before ∧
      p.unread = before ++ q.unread ∧ q.closed = p.closed := by
  cases hlabel : Frame.expect limit p with
  | none => simp [receive, hlabel] at h
  | some found =>
    obtain ⟨result, p'⟩ := found
    cases result with
    | error fault => simp [receive, hlabel] at h
    | ok label =>
      cases hpayload : Frame.expect limit p' with
      | none => simp [receive, hlabel, hpayload] at h
      | some found =>
        obtain ⟨result, q'⟩ := found
        cases result with
        | error fault => simp [receive, hlabel, hpayload] at h
        | ok payload =>
          simp [receive, hlabel, hpayload] at h
          obtain ⟨rfl, rfl⟩ := h
          obtain ⟨hunread, hclosed, -, h32⟩ := Frame.read_eq_ok (Frame.read_of_expect hlabel)
          obtain ⟨hunread', hclosed', -, h32'⟩ := Frame.read_eq_ok (Frame.read_of_expect hpayload)
          refine ⟨label, Frame.encode label ++ Frame.encode payload, rfl, ?_, ?_,
            hclosed'.trans hclosed⟩
          · exact (Frame.stream_singleton h32).append (Frame.stream_singleton h32')
          · rw [hunread, hunread', List.append_assoc]

/-- Nothing but the end of what comes keeps a message from being received, unless a frame is too
large. -/
theorem receive_eq_error {limit : Nat} {p q : Pipe} {fault : Fault}
    (h : receive limit p = some (.error fault, q)) :
    (∃ n, fault = .frameTooLarge n limit) ∧ Frame.Refused limit p.unread ∨
      (fault = .closed ∨ fault = .system .unexpectedEnd) ∧ p.closed = true ∧ q = ⟨[], true⟩ := by
  cases hlabel : Frame.expect limit p with
  | none => simp [receive, hlabel] at h
  | some found =>
    obtain ⟨result, p'⟩ := found
    cases result with
    | error fault' =>
      simp [receive, hlabel] at h
      obtain ⟨rfl, rfl⟩ := h
      exact Frame.expect_eq_error hlabel
    | ok label =>
      cases hpayload : Frame.expect limit p' with
      | none => simp [receive, hlabel, hpayload] at h
      | some found =>
        obtain ⟨result, q'⟩ := found
        cases result with
        | ok payload => simp [receive, hlabel, hpayload] at h
        | error fault' =>
          simp [receive, hlabel, hpayload] at h
          obtain ⟨rfl, rfl⟩ := h
          obtain ⟨hunread, hclosed, -, h32⟩ := Frame.read_eq_ok (Frame.read_of_expect hlabel)
          rcases Frame.expect_eq_error hpayload with ⟨hlarge, hrefused⟩ | ⟨hfault, hclosed', hq⟩
          · rw [hunread]
            exact .inl ⟨hlarge, hrefused.of_append (Frame.stream_singleton h32)⟩
          · exact .inr ⟨hfault, hclosed.symm.trans hclosed', hq⟩

/-- A message that has come is received, whatever comes after it. -/
theorem receive_octets {reading : Nat} {m : Message} {rest : List UInt8} {closed : Bool}
    (hlabel : (Utf8.encode m.label).length ≤ reading ∧ (Utf8.encode m.label).length < UInt32.size)
    (hpayload : m.payload.length ≤ reading ∧ m.payload.length < UInt32.size) :
    receive reading ⟨m.octets ++ rest, closed⟩ = some (.ok m, ⟨rest, closed⟩) := by
  have hfirst : Frame.expect reading
      ⟨Frame.encode (Utf8.encode m.label) ++ (Frame.encode m.payload ++ rest), closed⟩
        = some (.ok (Utf8.encode m.label), ⟨Frame.encode m.payload ++ rest, closed⟩) :=
    Frame.expect_encode hlabel.1 hlabel.2
  have hsecond : Frame.expect reading ⟨Frame.encode m.payload ++ rest, closed⟩
      = some (.ok m.payload, ⟨rest, closed⟩) :=
    Frame.expect_encode hpayload.1 hpayload.2
  rw [Message.octets_eq, List.append_assoc]
  simp only [receive, hfirst, hsecond, Option.bind_eq_bind, Option.bind_some, Option.pure_def,
    Utf8.decodeLossy_encode]

/-- A message that carries the frames of another one in a payload that is too large: after the
refusal the other one is received. -/
theorem receive_nested {reading : Nat} {label : String} {m : Message} {rest : List UInt8}
    {closed : Bool} (hlabel : (Utf8.encode label).length ≤ reading)
    (hlabel32 : (Utf8.encode label).length < UInt32.size) (hlarge : reading < m.octets.length)
    (hlarge32 : m.octets.length < UInt32.size) (hfits : ∀ b ∈ m.bodies, b.length ≤ reading) :
    receive reading ⟨Message.octets ⟨label, m.octets⟩ ++ rest, closed⟩
        = some (.error (.frameTooLarge m.octets.length reading), ⟨m.octets ++ rest, closed⟩) ∧
      receive reading ⟨m.octets ++ rest, closed⟩ = some (.ok m, ⟨rest, closed⟩) := by
  have hlength : m.octets.length
      = (Utf8.encode m.label).length + 4 + (m.payload.length + 4) := by
    rw [Message.octets_eq, List.length_append, Frame.length_encode, Frame.length_encode]
  have hmlabel := hfits (Utf8.encode m.label) (by simp [Message.bodies])
  have hmpayload := hfits m.payload (by simp [Message.bodies])
  constructor
  · have hfirst : Frame.expect reading
        ⟨Frame.encode (Utf8.encode label) ++ (Frame.encode m.octets ++ rest), closed⟩
          = some (.ok (Utf8.encode label), ⟨Frame.encode m.octets ++ rest, closed⟩) :=
      Frame.expect_encode hlabel hlabel32
    have hsecond : Frame.expect reading ⟨Frame.encode m.octets ++ rest, closed⟩
        = some (.error (.frameTooLarge m.octets.length reading), ⟨m.octets ++ rest, closed⟩) := by
      rw [Frame.expect, Frame.read_encode_of_lt hlarge hlarge32]
      rfl
    rw [Message.octets_eq, List.append_assoc]
    simp only [receive, hfirst, hsecond, Option.bind_eq_bind, Option.bind_some, Option.pure_def]
  · exact receive_octets ⟨hmlabel, by omega⟩ ⟨hmpayload, by omega⟩

end Subscription

end TopicDirectory
