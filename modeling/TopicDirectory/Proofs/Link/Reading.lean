import TopicDirectory.Proofs.Link.Stream

/-!
# What is read from a connection

Whatever octets come, the frame at their front is read, or a length over the limit is refused, or
they come to their end (`read_cases`).  As long as the connection is open nothing but a length over
the limit keeps a frame from being read (`refused_of_read`).  Frames can be told from each other, so
octets that can be cut into frames can be cut in one way only (`Stream.of_append`).
-/

namespace TopicDirectory.Frame

/-- The four octets of a length are those that gave it. -/
theorem lengthOctets_length (a b c d : UInt8) : lengthOctets (length a b c d) = [a, b, c, d] := by
  have hoctet (n : Nat) (x : UInt8) (h : n % 256 = x.toNat) : UInt8.ofNat n = x := by
    rw [← UInt8.toNat_inj, UInt8.toNat_ofNat']
    exact h
  have ha := a.toNat_lt
  have hb := b.toNat_lt
  have hc := c.toNat_lt
  have hd := d.toNat_lt
  simp only [lengthOctets, length]
  rw [hoctet _ a (by omega), hoctet _ b (by omega), hoctet _ c (by omega), hoctet _ d (by omega)]

theorem length_lt (a b c d : UInt8) : length a b c d < UInt32.size := by
  have ha := a.toNat_lt
  have hb := b.toNat_lt
  have hc := c.toNat_lt
  have hd := d.toNat_lt
  simp only [length, UInt32.size]
  omega

theorem length_encode (body : List UInt8) : (encode body).length = body.length + 4 := by
  rw [encode, List.length_append, Nat.add_comm]
  rfl

/-- Whether octets, after some frames, go on with a length over the limit. -/
def Refused (limit : Nat) (octets : List UInt8) : Prop :=
  ∃ bodies before a b c d rest, Stream bodies before ∧ octets = before ++ a :: b :: c :: d :: rest ∧
    limit < length a b c d

/-- Whatever has come: its first frame is read, or it begins with a length over the limit, or it
comes to its end. -/
theorem read_cases {limit : Nat} {p q : Pipe} {result : Except Link.Fault (Option (List UInt8))}
    (h : read limit p = some (result, q)) :
    (∃ body, result = .ok (some body) ∧ p.unread = encode body ++ q.unread ∧ q.closed = p.closed ∧
      body.length ≤ limit ∧ body.length < UInt32.size) ∨
    ((∃ n, result = .error (.frameTooLarge n limit)) ∧ Refused limit p.unread) ∨
    ((result = .ok none ∨ result = .error (.system .unexpectedEnd)) ∧ p.closed = true ∧
      q = ⟨[], true⟩) := by
  unfold read at h
  split at h
  · rename_i a b c d rest hunread
    dsimp only at h
    split at h
    · rename_i hlimit
      cases h
      exact .inr (.inl ⟨⟨_, rfl⟩, [], [], a, b, c, d, rest, stream_nil, hunread, hlimit⟩)
    · rename_i hlimit
      split at h
      · rename_i hlength
        cases h
        have h32 := length_lt a b c d
        refine .inl ⟨_, rfl, ?_, rfl, by omega, by omega⟩
        rw [hunread, encode, hlength, lengthOctets_length, List.append_assoc, List.take_append_drop]
        rfl
      · split at h
        · rename_i hclosed
          cases h
          exact .inr (.inr ⟨.inr rfl, hclosed, by rw [hclosed]⟩)
        · cases h
  · split at h
    · rename_i hclosed
      cases h
      exact .inr (.inr ⟨.inl rfl, hclosed, by rw [hclosed]⟩)
    · cases h

/-- What is read was the first frame of what had come. -/
theorem read_eq_ok {limit : Nat} {p q : Pipe} {body : List UInt8}
    (h : read limit p = some (.ok (some body), q)) :
    p.unread = encode body ++ q.unread ∧ q.closed = p.closed ∧ body.length ≤ limit ∧
      body.length < UInt32.size := by
  rcases read_cases h with ⟨body', hbody, hread⟩ | ⟨⟨n, hn⟩, -⟩ | ⟨hend | hend, -⟩
  · cases hbody
    exact hread
  · cases hn
  · cases hend
  · cases hend

/-- As long as a connection is open it is a length over the limit that keeps frames from being
read. -/
theorem refused_of_read {limit : Nat} {p q : Pipe}
    {result : Except Link.Fault (Option (List UInt8))} (hopen : p.closed = false)
    (h : read limit p = some (result, q)) (hresult : ∀ body, result ≠ .ok (some body)) :
    Refused limit p.unread := by
  rcases read_cases h with ⟨body, hbody, -⟩ | ⟨-, hrefused⟩ | ⟨-, hclosed, -⟩
  · exact absurd hbody (hresult body)
  · exact hrefused
  · exact absurd (hclosed.symm.trans hopen) nofun

theorem read_of_expect {limit : Nat} {p q : Pipe} {body : List UInt8}
    (h : expect limit p = some (.ok body, q)) : read limit p = some (.ok (some body), q) := by
  rw [expect, Option.map_eq_some_iff] at h
  obtain ⟨⟨result, q'⟩, hread, heq⟩ := h
  rcases result with fault | _ | body'
  · cases heq
  · cases heq
  · cases heq
    exact hread

/-- What is to be read may be refused as too large, and then the rest of it stays where it is, or the
connection is over. -/
theorem expect_eq_error {limit : Nat} {p q : Pipe} {fault : Link.Fault}
    (h : expect limit p = some (.error fault, q)) :
    (∃ n, fault = .frameTooLarge n limit) ∧ Refused limit p.unread ∨
      (fault = .closed ∨ fault = .system .unexpectedEnd) ∧ p.closed = true ∧ q = ⟨[], true⟩ := by
  rw [expect, Option.map_eq_some_iff] at h
  obtain ⟨⟨result, q'⟩, hread, heq⟩ := h
  rcases read_cases hread with
    ⟨body, rfl, -⟩ | ⟨⟨n, rfl⟩, hrefused⟩ | ⟨rfl | rfl, hclosed, rfl⟩
  · cases heq
  · cases heq
    exact .inl ⟨⟨n, rfl⟩, hrefused⟩
  · cases heq
    exact .inr ⟨.inl rfl, hclosed, rfl⟩
  · cases heq
    exact .inr ⟨.inr rfl, hclosed, rfl⟩

theorem Refused.of_append {limit : Nat} {bodies : List (List UInt8)} {octets more : List UInt8}
    (hbodies : Stream bodies octets) (h : Refused limit more) : Refused limit (octets ++ more) := by
  obtain ⟨bodies', before, a, b, c, d, rest, hbefore, rfl, hlimit⟩ := h
  exact ⟨_, _, a, b, c, d, rest, hbodies.append hbefore, (List.append_assoc _ _ _).symm, hlimit⟩

theorem Refused.mono {limit : Nat} {octets : List UInt8} (h : Refused limit octets)
    (more : List UInt8) : Refused limit (octets ++ more) := by
  obtain ⟨bodies, before, a, b, c, d, rest, hbefore, rfl, hlimit⟩ := h
  exact ⟨bodies, before, a, b, c, d, rest ++ more, hbefore, by simp, hlimit⟩

/-- The frame at the front of octets is known. -/
theorem encode_append_inj {body body' rest rest' : List UInt8} (hbody : body.length < UInt32.size)
    (hbody' : body'.length < UInt32.size) (h : encode body ++ rest = encode body' ++ rest') :
    body = body' ∧ rest = rest' := by
  have hread : read (max body.length body'.length) ⟨encode body ++ rest, false⟩
      = some (.ok (some body), ⟨rest, false⟩) := read_encode (Nat.le_max_left _ _) hbody
  have hread' : read (max body.length body'.length) ⟨encode body' ++ rest', false⟩
      = some (.ok (some body'), ⟨rest', false⟩) := read_encode (Nat.le_max_right _ _) hbody'
  rw [h, hread'] at hread
  cases hread
  exact ⟨rfl, rfl⟩

/-- If octets and those before them can be cut into frames, then the octets can, and the frames
before them are the first ones. -/
theorem Stream.of_append {before bodies : List (List UInt8)} {octets more : List UInt8}
    (hbefore : Stream before octets) (h : Stream bodies (octets ++ more)) :
    ∃ rest, bodies = before ++ rest ∧ Stream rest more := by
  induction before generalizing bodies octets with
  | nil =>
    obtain rfl : octets = [] := stream_nil_iff.1 hbefore
    exact ⟨bodies, rfl, h⟩
  | cons body before ih =>
    obtain ⟨h32, octets', rfl, hoctets'⟩ := stream_cons_iff.1 hbefore
    cases bodies with
    | nil => cases h.1
    | cons body' bodies =>
      obtain ⟨h32', octets'', heq, hoctets''⟩ := stream_cons_iff.1 h
      rw [List.append_assoc] at heq
      obtain ⟨rfl, rfl⟩ := encode_append_inj h32 h32' heq
      obtain ⟨rest, rfl, hrest⟩ := ih hoctets' hoctets''
      exact ⟨rest, rfl, hrest⟩

theorem Stream.unique {bodies bodies' : List (List UInt8)} {octets : List UInt8}
    (h : Stream bodies octets) (h' : Stream bodies' octets) : bodies = bodies' := by
  have hnothing : Stream bodies' (octets ++ []) := by
    rw [List.append_nil]
    exact h'
  obtain ⟨rest, rfl, hrest⟩ := h.of_append hnothing
  rw [hrest.eq_nil, List.append_nil]

/-- Where all frames are within the limit none is refused. -/
theorem Stream.not_refused {limit : Nat} {bodies : List (List UInt8)} {octets : List UInt8}
    (h : Stream bodies octets) (hlimit : ∀ b ∈ bodies, b.length ≤ limit) :
    ¬ Refused limit octets := by
  rintro ⟨before, octets, a, b, c, d, rest, hbefore, rfl, hlt⟩
  obtain ⟨bodies', rfl, hbodies'⟩ := hbefore.of_append h
  cases bodies' with
  | nil => cases hbodies'.1
  | cons body bodies' =>
    obtain ⟨h32, rest', heq, -⟩ := stream_cons_iff.1 hbodies'
    rw [encode, List.append_assoc] at heq
    have heq' : [a, b, c, d] ++ rest = lengthOctets body.length ++ (body ++ rest') := heq
    have hoctets : [a, b, c, d] = lengthOctets body.length := (List.append_inj heq' rfl).1
    have hle := hlimit body (by simp)
    have hlength := length_lengthOctets h32
    simp only [lengthOctets, List.cons.injEq, and_true] at hoctets
    obtain ⟨rfl, rfl, rfl, rfl⟩ := hoctets
    omega

/-- Of what has come of a frame on an open connection, the frame is read, or it is too large. -/
theorem expect_of_prefix {limit : Nat} {body : List UInt8} {p q : Pipe}
    {result : Except Link.Fault (List UInt8)} (h32 : body.length < UInt32.size)
    (hopen : p.closed = false) (hfront : p.unread <+: encode body)
    (h : expect limit p = some (result, q)) :
    (result = .ok body ∧ p.unread = encode body ∧ q = ⟨[], false⟩) ∨
      (∃ fault, result = .error fault) ∧ limit < body.length := by
  obtain ⟨more, hmore⟩ := hfront
  cases result with
  | ok body' =>
    obtain ⟨hunread, hclosed, -, h32'⟩ := read_eq_ok (read_of_expect h)
    rw [hunread, List.append_assoc, ← List.append_nil (encode body)] at hmore
    obtain ⟨rfl, hnil⟩ := encode_append_inj h32' h32 hmore
    obtain ⟨hq, -⟩ := List.append_eq_nil_iff.1 hnil
    rw [hq, List.append_nil] at hunread
    refine .inl ⟨rfl, hunread, ?_⟩
    rw [← hq, ← hopen, ← hclosed]
  | error fault =>
    rcases expect_eq_error h with ⟨-, hrefused⟩ | ⟨-, hclosed, -⟩
    · refine .inr ⟨⟨fault, rfl⟩, Nat.lt_of_not_le fun hfits => ?_⟩
      have hwhole := hrefused.mono more
      rw [hmore] at hwhole
      refine (stream_singleton h32).not_refused (fun b hb => ?_) hwhole
      rw [List.mem_singleton.1 hb]
      exact hfits
    · exact absurd (hclosed.symm.trans hopen) nofun

/-- Where nothing can be read there is no frame within the limit. -/
theorem Stream.eq_nil_of_read {limit : Nat} {bodies : List (List UInt8)} {p : Pipe}
    (h : Stream bodies p.unread) (hlimit : ∀ b ∈ bodies, b.length ≤ limit)
    (hread : read limit p = none) : bodies = [] := by
  obtain ⟨unread, closed⟩ := p
  cases bodies with
  | nil => rfl
  | cons body bodies =>
    obtain ⟨h32, rest, rfl, -⟩ := stream_cons_iff.1 h
    rw [read_encode (hlimit body List.mem_cons_self) h32] at hread
    cases hread

end TopicDirectory.Frame
