import TopicDirectory.Link.Frame

/-!
# Streams of frames

What is on its way on a connection that carries frames and nothing else: the frames of some bodies
one after the other (`Frame.Stream`).  Writing adds a body at the end, reading takes one from the
front.

The four octets of a frame's length hold lengths below `2 ^ 32`.  Whoever writes a body refuses one
that is over its limit, so a frame can be read again if its body is refused or is not too long for
the four octets (`Frame.Sound`).
-/

namespace TopicDirectory.Frame

/-- Whether the four octets of a length can hold that of a body, unless its writer refuses it. -/
def Sound (limit : Nat) (body : List UInt8) : Prop := body.length ≤ limit → body.length < UInt32.size

instance (limit : Nat) (body : List UInt8) : Decidable (Sound limit body) :=
  inferInstanceAs (Decidable (_ → _))

/-- The octets of the frames of bodies. -/
def Stream (bodies : List (List UInt8)) (octets : List UInt8) : Prop :=
  octets = bodies.flatMap encode ∧ ∀ b ∈ bodies, b.length < UInt32.size

theorem stream_nil : Stream [] [] := ⟨rfl, fun _ h => nomatch h⟩

theorem stream_nil_iff {octets : List UInt8} : Stream [] octets ↔ octets = [] := by
  constructor
  · intro h
    exact h.1
  · rintro rfl
    exact stream_nil

theorem Stream.append {as bs : List (List UInt8)} {xs ys : List UInt8} (ha : Stream as xs)
    (hb : Stream bs ys) : Stream (as ++ bs) (xs ++ ys) := by
  obtain ⟨rfl, ha⟩ := ha
  obtain ⟨rfl, hb⟩ := hb
  refine ⟨List.flatMap_append.symm, ?_⟩
  intro b h
  rcases List.mem_append.1 h with h | h
  · exact ha b h
  · exact hb b h

theorem stream_singleton {body : List UInt8} (h : body.length < UInt32.size) :
    Stream [body] (encode body) := by
  refine ⟨by simp, ?_⟩
  intro b hb
  rw [List.mem_singleton.1 hb]
  exact h

theorem Stream.concat {bodies : List (List UInt8)} {octets body : List UInt8}
    (h : Stream bodies octets) (hbody : body.length < UInt32.size) :
    Stream (bodies ++ [body]) (octets ++ encode body) :=
  h.append (stream_singleton hbody)

theorem stream_cons_iff {body : List UInt8} {bodies : List (List UInt8)} {octets : List UInt8} :
    Stream (body :: bodies) octets ↔
      body.length < UInt32.size ∧ ∃ rest, octets = encode body ++ rest ∧ Stream bodies rest := by
  constructor
  · rintro ⟨rfl, h⟩
    exact ⟨h body List.mem_cons_self, _, rfl, rfl, fun b hb => h b (List.mem_cons_of_mem _ hb)⟩
  · rintro ⟨hbody, rest, rfl, h⟩
    exact (stream_singleton hbody).append h

/-- Where there are no octets there are no frames. -/
theorem Stream.eq_nil {bodies : List (List UInt8)} (h : Stream bodies []) : bodies = [] := by
  cases bodies with
  | nil => rfl
  | cons body bodies =>
    obtain ⟨-, rest, hnil, -⟩ := stream_cons_iff.1 h
    cases hnil

theorem read_nil (limit : Nat) (closed : Bool) :
    read limit ⟨[], closed⟩ = if closed then some (.ok none, ⟨[], closed⟩) else none := rfl

/-- Where nothing has come and the end neither, more has to come first. -/
theorem read_of_unread_nil {limit : Nat} {p : Pipe} (hunread : p.unread = [])
    (hopen : p.closed = false) : read limit p = none := by
  rw [read, hunread, hopen]
  rfl

/-- A frame over the limit is refused. -/
theorem read_encode_of_lt {limit : Nat} {body rest : List UInt8} {closed : Bool}
    (hlimit : limit < body.length) (h32 : body.length < UInt32.size) :
    read limit ⟨encode body ++ rest, closed⟩
      = some (.error (.frameTooLarge body.length limit), ⟨body ++ rest, closed⟩) := by
  have hl := length_lengthOctets h32
  simp [read, encode, lengthOctets, hl, hlimit]

/-- From a stream its first body is read, if it is not over the limit. -/
theorem read_stream {limit : Nat} {bodies : List (List UInt8)} {p : Pipe}
    {result : Except Link.Fault (Option (List UInt8))} {q : Pipe} (h : Stream bodies p.unread)
    (hread : read limit p = some (result, q)) :
    (∃ body rest, bodies = body :: rest ∧ result = .ok (some body) ∧ body.length ≤ limit ∧
      Stream rest q.unread ∧ q.closed = p.closed) ∨
    (∀ body, result ≠ .ok (some body)) := by
  obtain ⟨unread, closed⟩ := p
  cases bodies with
  | nil =>
    obtain rfl : unread = [] := stream_nil_iff.1 h
    rw [read_nil] at hread
    cases closed with
    | false => cases hread
    | true =>
      cases hread
      exact .inr fun body heq => nomatch heq
  | cons body bodies =>
    obtain ⟨h32, rest, rfl, hrest⟩ := stream_cons_iff.1 h
    rcases Nat.lt_or_ge limit body.length with hlt | hle
    · rw [read_encode_of_lt hlt h32] at hread
      cases hread
      exact .inr fun body heq => nomatch heq
    · rw [read_encode hle h32] at hread
      cases hread
      exact .inl ⟨body, bodies, rfl, rfl, hle, hrest, rfl⟩

theorem expect_stream {limit : Nat} {bodies : List (List UInt8)} {p : Pipe}
    {result : Except Link.Fault (List UInt8)} {q : Pipe} (h : Stream bodies p.unread)
    (hexpect : expect limit p = some (result, q)) :
    (∃ body rest, bodies = body :: rest ∧ result = .ok body ∧ Stream rest q.unread ∧
      q.closed = p.closed) ∨
    (∃ fault, result = .error fault) := by
  rw [expect, Option.map_eq_some_iff] at hexpect
  obtain ⟨⟨found, rest⟩, hread, heq⟩ := hexpect
  rcases read_stream h hread with ⟨body, bodies, rfl, rfl, -, hrest, hclosed⟩ | hnone
  · cases heq
    exact .inl ⟨body, bodies, rfl, rfl, hrest, hclosed⟩
  · cases found with
    | error fault =>
      cases heq
      exact .inr ⟨_, rfl⟩
    | ok body? =>
      cases body? with
      | none =>
        cases heq
        exact .inr ⟨_, rfl⟩
      | some body => exact absurd rfl (hnone body)

end TopicDirectory.Frame
