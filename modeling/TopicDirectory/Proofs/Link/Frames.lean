import TopicDirectory.Proofs.Link.Reading

/-!
# The frames at the front of octets

Whatever octets come, a longest run of whole frames within the limit is at their front (`Longest`),
and there is only one.  Whoever reads frame by frame takes just these frames, and then finds what
keeps the next one from being read (`readAll`, `frames`, `longest_frames`).

What keeps a frame from being read on an open connection is a length over the limit, and nothing
that comes later changes that (`frames_of_read`).
-/

namespace TopicDirectory.Frame

open Link (Fault)

/-! ## Runs of frames -/

/-- Whether the frames of bodies are at the front of octets, and each is within the limit. -/
structure Begins (limit : Nat) (bodies : List (List UInt8)) (octets : List UInt8) : Prop where
  front : bodies.flatMap encode <+: octets
  fits : ∀ b ∈ bodies, b.length ≤ limit ∧ b.length < UInt32.size

/-- Whether bodies are those of the longest run of frames at the front of octets. -/
structure Longest (limit : Nat) (octets : List UInt8) (bodies : List (List UInt8)) : Prop where
  begins : Begins limit bodies octets
  longest : ∀ others, Begins limit others octets → others <+: bodies

variable {limit : Nat} {octets rest : List UInt8} {body : List UInt8} {bodies : List (List UInt8)}

theorem begins_nil : Begins limit [] octets := ⟨List.nil_prefix, nofun⟩

theorem Begins.mono (h : Begins limit bodies octets) (more : List UInt8) :
    Begins limit bodies (octets ++ more) :=
  ⟨h.front.trans (List.prefix_append _ _), h.fits⟩

/-- A run of frames begins with a frame, and the others are at the front of what follows it. -/
theorem begins_cons_iff : Begins limit (body :: bodies) octets ↔
    body.length ≤ limit ∧ body.length < UInt32.size ∧
      ∃ rest, octets = encode body ++ rest ∧ Begins limit bodies rest := by
  constructor
  · intro h
    obtain ⟨more, hmore⟩ := h.front
    obtain ⟨hlimit, h32⟩ := h.fits body List.mem_cons_self
    refine ⟨hlimit, h32, bodies.flatMap encode ++ more, ?_, List.prefix_append _ _, ?_⟩
    · rw [← hmore, List.flatMap_cons, List.append_assoc]
    · intro b hb
      exact h.fits b (List.mem_cons_of_mem _ hb)
  · rintro ⟨hlimit, h32, rest, rfl, h⟩
    refine ⟨?_, ?_⟩
    · rw [List.flatMap_cons]
      exact (List.prefix_append_right_inj (encode body)).2 h.front
    · intro b hb
      rcases List.mem_cons.1 hb with rfl | hb
      · exact ⟨hlimit, h32⟩
      · exact h.fits b hb

/-- The frame that follows a run of frames makes it longer. -/
theorem Begins.concat (h : Begins limit bodies octets) (hlimit : body.length ≤ limit)
    (h32 : body.length < UInt32.size) (heq : octets = bodies.flatMap encode ++ (encode body ++ rest)) :
    Begins limit (bodies ++ [body]) octets := by
  refine ⟨⟨rest, ?_⟩, ?_⟩
  · rw [heq, List.flatMap_append, List.flatMap_singleton, List.append_assoc]
  · intro b hb
    rcases List.mem_append.1 hb with hb | hb
    · exact h.fits b hb
    · rw [List.mem_singleton.1 hb]
      exact ⟨hlimit, h32⟩

/-- Octets are cut into frames in one way. -/
theorem Longest.unique {others : List (List UInt8)} (h : Longest limit octets bodies)
    (h' : Longest limit octets others) : bodies = others :=
  (h'.longest bodies h.begins).eq_of_length_le (h.longest others h'.begins).length_le

/-! ## Reading frame by frame -/

/-- What one reading after the other takes from a pipe: the bodies of the frames, what stands in
place of the next frame, if anything does, and what is left. -/
structure Haul where
  bodies : List (List UInt8)
  next : Option (Except Fault (Option (List UInt8)))
  left : Pipe

/-- Reads frames until there is something else, or more octets have to come first. -/
def readAll (limit : Nat) (p : Pipe) : Haul :=
  match _h : read limit p with
  | some (.ok (some body), q) =>
    let haul := readAll limit q
    { haul with bodies := body :: haul.bodies }
  | some (result, q) => ⟨[], some result, q⟩
  | none => ⟨[], none, p⟩
termination_by p.unread.length
decreasing_by exact unread_length_lt_of_read _h

/-- The bodies of the frames that are read from octets. -/
def frames (limit : Nat) (octets : List UInt8) : List (List UInt8) :=
  (readAll limit ⟨octets, false⟩).bodies

variable {p q : Pipe} {result : Except Fault (Option (List UInt8))}

theorem readAll_of_frame (h : read limit p = some (.ok (some body), q)) :
    readAll limit p = { readAll limit q with bodies := body :: (readAll limit q).bodies } := by
  rw [readAll]
  split
  · rename_i heq
    rw [h] at heq
    cases heq
    rfl
  · rename_i hresult heq
    rw [h] at heq
    cases heq
    exact absurd rfl (hresult body)
  · rename_i heq
    rw [h] at heq
    cases heq

theorem readAll_of_other (h : read limit p = some (result, q))
    (hresult : ∀ body, result ≠ .ok (some body)) : readAll limit p = ⟨[], some result, q⟩ := by
  rw [readAll]
  split
  · rename_i heq
    rw [h] at heq
    cases heq
    exact absurd rfl (hresult _)
  · rename_i heq
    rw [h] at heq
    cases heq
    rfl
  · rename_i heq
    rw [h] at heq
    cases heq

theorem readAll_of_none (h : read limit p = none) : readAll limit p = ⟨[], none, p⟩ := by
  rw [readAll]
  split
  · rename_i heq
    rw [h] at heq
    cases heq
  · rename_i heq
    rw [h] at heq
    cases heq
  · rfl

/-- The frames within the limit are read one after the other, and reading goes on behind them. -/
theorem readAll_flatMap_encode (h : ∀ b ∈ bodies, b.length ≤ limit ∧ b.length < UInt32.size)
    (rest : List UInt8) (closed : Bool) :
    readAll limit ⟨bodies.flatMap encode ++ rest, closed⟩
      = { readAll limit ⟨rest, closed⟩ with
          bodies := bodies ++ (readAll limit ⟨rest, closed⟩).bodies } := by
  induction bodies with
  | nil => rfl
  | cons body bodies ih =>
    obtain ⟨hlimit, h32⟩ := h body List.mem_cons_self
    have hrest := ih fun b hb => h b (List.mem_cons_of_mem _ hb)
    rw [List.flatMap_cons, List.append_assoc, readAll_of_frame (read_encode hlimit h32), hrest]
    rfl

theorem frames_flatMap_append (h : ∀ b ∈ bodies, b.length ≤ limit ∧ b.length < UInt32.size) :
    frames limit (bodies.flatMap encode ++ rest) = bodies ++ frames limit rest :=
  congrArg Haul.bodies (readAll_flatMap_encode h rest false)

theorem frames_encode_append (hlimit : body.length ≤ limit) (h32 : body.length < UInt32.size) :
    frames limit (encode body ++ rest) = body :: frames limit rest := by
  rw [frames, readAll_of_frame (read_encode hlimit h32)]
  rfl

/-- A frame is at the front of octets, or none is read from them. -/
theorem exists_encode_or_frames_eq_nil (limit : Nat) (octets : List UInt8) :
    (∃ body rest, octets = encode body ++ rest ∧ body.length ≤ limit ∧
      body.length < UInt32.size) ∨ frames limit octets = [] := by
  cases hread : read limit ⟨octets, false⟩ with
  | none =>
    rw [frames, readAll_of_none hread]
    exact .inr rfl
  | some found =>
    obtain ⟨result, q⟩ := found
    by_cases hresult : ∃ body, result = .ok (some body)
    · obtain ⟨body, rfl⟩ := hresult
      obtain ⟨hunread, -, hlimit, h32⟩ := read_eq_ok hread
      exact .inl ⟨body, q.unread, hunread, hlimit, h32⟩
    · rw [frames, readAll_of_other hread fun body hbody => hresult ⟨body, hbody⟩]
      exact .inr rfl

/-- The frames that are read from octets are the longest run at their front. -/
theorem longest_frames (limit : Nat) (octets : List UInt8) :
    Longest limit octets (frames limit octets) := by
  induction hn : octets.length using Nat.strongRecOn generalizing octets with
  | ind n ih =>
    subst hn
    rcases exists_encode_or_frames_eq_nil limit octets with
      ⟨body, rest, rfl, hlimit, h32⟩ | hnone
    · have hshorter : rest.length < (encode body ++ rest).length := by
        rw [List.length_append, length_encode]
        omega
      have hrest := ih rest.length hshorter rest rfl
      rw [frames_encode_append hlimit h32]
      refine ⟨begins_cons_iff.2 ⟨hlimit, h32, rest, rfl, hrest.begins⟩, ?_⟩
      intro others hothers
      cases others with
      | nil => exact List.nil_prefix
      | cons other others =>
        obtain ⟨-, h32', rest', heq, hothers⟩ := begins_cons_iff.1 hothers
        obtain ⟨rfl, rfl⟩ := encode_append_inj h32 h32' heq
        exact List.cons_prefix_cons.2 ⟨rfl, hrest.longest others hothers⟩
    · rw [hnone]
      refine ⟨begins_nil, ?_⟩
      intro others hothers
      cases others with
      | nil => exact List.nil_prefix
      | cons other others =>
        -- a frame at the front would have been read
        obtain ⟨hlimit, h32, rest, rfl, -⟩ := begins_cons_iff.1 hothers
        rw [frames_encode_append hlimit h32] at hnone
        cases hnone

/-- Of frames that come whole the first ones are read, up to one that is over the limit. -/
theorem frames_flatMap_prefix (limit : Nat) (h : ∀ b ∈ bodies, b.length < UInt32.size) :
    frames limit (bodies.flatMap encode) <+: bodies := by
  induction bodies with
  | nil =>
    have hnone : frames limit [] = [] := by rw [frames, readAll_of_none rfl]
    exact List.prefix_nil.2 hnone
  | cons body bodies ih =>
    have hrest := ih fun b hb => h b (List.mem_cons_of_mem _ hb)
    rcases exists_encode_or_frames_eq_nil limit ((body :: bodies).flatMap encode) with
      ⟨first, rest, heq, hlimit, h32⟩ | hnone
    · rw [List.flatMap_cons] at heq
      obtain ⟨rfl, rfl⟩ := encode_append_inj (h body List.mem_cons_self) h32 heq
      rw [List.flatMap_cons, frames_encode_append hlimit h32]
      exact List.cons_prefix_cons.2 ⟨rfl, hrest⟩
    · rw [hnone]
      exact List.nil_prefix

/-! ## What keeps a frame from being read -/

/-- On an open connection it is a length over the limit. -/
theorem unread_eq_of_read (hopen : p.closed = false) (h : read limit p = some (result, q))
    (hresult : ∀ body, result ≠ .ok (some body)) :
    ∃ a b c d rest, p.unread = a :: b :: c :: d :: rest ∧ limit < length a b c d := by
  unfold read at h
  rw [hopen] at h
  split at h
  · rename_i a b c d rest hunread
    dsimp only at h
    split at h
    · rename_i hlimit
      exact ⟨a, b, c, d, rest, hunread, hlimit⟩
    · split at h
      · cases h
        exact absurd rfl (hresult _)
      · cases h
  · cases h

/-- Where something else than a frame is read there is no frame, and as long as the connection is
open nothing that comes later makes it one. -/
theorem frames_of_read (h : read limit p = some (result, q))
    (hresult : ∀ body, result ≠ .ok (some body)) :
    frames limit p.unread = [] ∧
      (p.closed = false → ∀ more, frames limit (p.unread ++ more) = []) := by
  constructor
  · rcases exists_encode_or_frames_eq_nil limit p.unread with
      ⟨body, rest, hunread, hlimit, h32⟩ | hnone
    · have hframe : read limit p = some (.ok (some body), ⟨rest, p.closed⟩) := by
        rw [← read_encode hlimit h32, ← hunread]
      rw [h] at hframe
      cases hframe
      exact absurd rfl (hresult body)
    · exact hnone
  · intro hopen more
    obtain ⟨a, b, c, d, rest, hunread, hlimit⟩ := unread_eq_of_read hopen h hresult
    have hlarge : read limit ⟨p.unread ++ more, false⟩
        = some (.error (.frameTooLarge (length a b c d) limit), ⟨rest ++ more, false⟩) := by
      rw [hunread]
      simp [read, hlimit]
    rw [frames, readAll_of_other hlarge fun _ hframe => by cases hframe]

theorem closed_of_read (h : read limit p = some (result, q)) : q.closed = p.closed := by
  unfold read at h
  split at h
  · dsimp only at h
    split at h
    · cases h
      rfl
    · split at h
      · cases h
        rfl
      · split at h
        · cases h
          rfl
        · cases h
  · split at h
    · cases h
      rfl
    · cases h

/-- What should not have ended is the first frame, or there is none and as long as the connection is
open there will be none. -/
theorem frames_of_expect {result : Except Fault (List UInt8)}
    (h : expect limit p = some (result, q)) : q.closed = p.closed ∧
      ((∃ body, result = .ok body ∧ q.unread.length < p.unread.length ∧
          ∀ more, frames limit (p.unread ++ more) = body :: frames limit (q.unread ++ more)) ∨
        (∃ fault, result = .error fault) ∧ frames limit p.unread = [] ∧
          (p.closed = false → ∀ more, frames limit (p.unread ++ more) = [])) := by
  rw [expect, Option.map_eq_some_iff] at h
  obtain ⟨⟨found, q'⟩, hread, heq⟩ := h
  obtain rfl : q' = q := congrArg Prod.snd heq
  refine ⟨closed_of_read hread, ?_⟩
  rcases found with fault | _ | body
  · cases heq
    exact .inr ⟨⟨_, rfl⟩, frames_of_read hread fun _ hframe => by cases hframe⟩
  · cases heq
    exact .inr ⟨⟨_, rfl⟩, frames_of_read hread fun _ hframe => by cases hframe⟩
  · cases heq
    obtain ⟨hunread, -, hlimit, h32⟩ := read_eq_ok hread
    refine .inl ⟨body, rfl, unread_length_lt_of_read hread, fun more => ?_⟩
    rw [hunread, List.append_assoc, frames_encode_append hlimit h32]

/-- Where no more octets can come something is read. -/
theorem isSome_read (limit : Nat) (h : p.closed = true) : (read limit p).isSome := by
  unfold read
  rw [h]
  split
  · dsimp only
    split
    · rfl
    · split <;> rfl
  · rfl

/-- Where more octets have to come first there is no frame. -/
theorem frames_of_none (h : read limit p = none) : frames limit p.unread = [] := by
  have hopen : p.closed = false := by
    cases hclosed : p.closed with
    | false => rfl
    | true =>
      have hsome := isSome_read limit hclosed
      rw [h] at hsome
      cases hsome
  rw [frames, ← hopen, readAll_of_none h]

theorem isSome_expect (limit : Nat) (h : p.closed = true) : (expect limit p).isSome := by
  rw [expect, Option.isSome_map]
  exact isSome_read limit h

end TopicDirectory.Frame
