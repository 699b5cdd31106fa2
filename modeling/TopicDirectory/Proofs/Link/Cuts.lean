import TopicDirectory.Proofs.Link.Transfer

/-!
# Streams that break off

A connection can end before all that was written to it has come.  The reader takes the frames that
have come whole, and then finds how the rest ends (`readAll_of_cut`).  Where the rest breaks off
inside a body the reader says that more was to come.  Where fewer than four octets of a frame have
come it says nothing of the kind: a length that breaks off is taken for the end
(`readAll_cutLength`).
-/

namespace TopicDirectory.Frame

open Link (Fault)

/-- Whether octets are the beginning of a frame and not all of it; it may be that none has come. -/
structure Unfinished (body part : List UInt8) : Prop where
  front : part <+: encode body
  ne_encode : part ≠ encode body

/-- What is found in place of a frame that has not come whole. -/
def ending (part : List UInt8) : Except Fault (Option (List UInt8)) :=
  if part.length < 4 then .ok none else .error (.system .unexpectedEnd)

variable {limit : Nat} {body part octets : List UInt8} {bodies : List (List UInt8)}

/-! ## What is found -/

theorem ending_ne_frame : ending part ≠ .ok (some body) := by
  unfold ending
  split <;> nofun

/-- The end is found for octets that have not begun a frame, and for those alone, unless one, two or
three octets have come. -/
theorem ending_iff : (ending part = .ok none ↔ part = []) ↔ part = [] ∨ 4 ≤ part.length := by
  unfold ending
  split
  · rename_i hlt
    simp only [true_iff]
    exact ⟨.inl, fun h => h.resolve_right (Nat.not_le.2 hlt)⟩
  · rename_i hge
    have hne : part ≠ [] := by
      rintro rfl
      exact hge (by decide)
    simp [hne, Nat.le_of_not_lt hge]

/-- Fewer than four octets are no length. -/
theorem read_of_length_lt (h : part.length < 4) :
    read limit ⟨part, true⟩ = some (.ok none, ⟨[], true⟩) := by
  unfold read
  split
  · rename_i a b c d rest hunread
    obtain rfl : part = a :: b :: c :: d :: rest := hunread
    simp only [List.length_cons] at h
    omega
  · rfl

/-- A frame of which four octets have come is its length and the beginning of its body. -/
theorem Unfinished.exists_front (h : Unfinished body part) (hlength : 4 ≤ part.length) :
    ∃ front, part = lengthOctets body.length ++ front ∧ front.length < body.length := by
  have hoctets : lengthOctets body.length <+: part :=
    List.prefix_of_prefix_length_le (List.prefix_append _ body) h.front hlength
  obtain ⟨front, rfl⟩ := hoctets
  have hfront : front <+: body := (List.prefix_append_right_inj _).1 h.front
  have hne : front ≠ body := by
    rintro rfl
    exact h.ne_encode rfl
  refine ⟨front, rfl, Nat.lt_of_le_of_ne hfront.length_le ?_⟩
  exact fun heq => hne (hfront.eq_of_length heq)

/-- A body that breaks off is taken out with its length. -/
theorem read_of_front {front : List UInt8} (hlimit : body.length ≤ limit)
    (h32 : body.length < UInt32.size) (hfront : front.length < body.length) :
    read limit ⟨lengthOctets body.length ++ front, true⟩
      = some (.error (.system .unexpectedEnd), ⟨[], true⟩) := by
  have hl := length_lengthOctets h32
  have htake : ¬ min body.length front.length = body.length := by omega
  simp [read, lengthOctets, hl, Nat.not_lt.2 hlimit, htake]

/-- A part of a frame is taken out, and there is nothing behind it. -/
theorem Unfinished.read_eq (h : Unfinished body part) (hlimit : body.length ≤ limit)
    (h32 : body.length < UInt32.size) :
    read limit ⟨part, true⟩ = some (ending part, ⟨[], true⟩) := by
  by_cases hlength : part.length < 4
  · rw [ending, if_pos hlength, read_of_length_lt hlength]
  · obtain ⟨front, rfl, hfront⟩ := h.exists_front (Nat.le_of_not_lt hlength)
    rw [ending, if_neg hlength, read_of_front hlimit h32 hfront]

/-! ## Where a stream breaks off -/

/-- Octets with which frames begin are some whole frames, and a part of the next one. -/
theorem exists_unfinished_of_prefix (hcut : octets <+: bodies.flatMap encode)
    (hne : octets ≠ bodies.flatMap encode) :
    ∃ whole next after part, bodies = whole ++ next :: after ∧
      octets = whole.flatMap encode ++ part ∧ Unfinished next part := by
  induction bodies generalizing octets with
  | nil => exact absurd (List.prefix_nil.1 hcut) hne
  | cons body bodies ih =>
    rw [List.flatMap_cons] at hcut hne
    by_cases hwhole : encode body <+: octets
    · obtain ⟨rest, rfl⟩ := hwhole
      have hrest : rest <+: bodies.flatMap encode := (List.prefix_append_right_inj _).1 hcut
      obtain ⟨whole, next, after, part, rfl, rfl, hpart⟩ := ih hrest fun heq => hne (by rw [heq])
      exact ⟨body :: whole, next, after, part, rfl, by rw [List.flatMap_cons, List.append_assoc],
        hpart⟩
    · -- the first frame has not come whole, so all that has come is of this frame
      have hfront : octets <+: encode body :=
        (List.prefix_or_prefix_of_prefix hcut (List.prefix_append _ _)).resolve_right hwhole
      refine ⟨[], body, bodies, octets, rfl, rfl, hfront, ?_⟩
      rintro rfl
      exact hwhole (List.prefix_refl _)

/-- **What is left of a stream that breaks off.**  Of what a writer has written only a part comes,
and then the connection ends.  The reader takes the frames that have come whole, in order.  Then it
finds the end where none of the next frame has come, and an error where its length has come and not
all of its body; but where one, two or three octets of it have come, the reader finds the end too. -/
theorem readAll_of_cut (hsound : ∀ b ∈ bodies, Sound limit b)
    (hcut : octets <+: (writeAll limit {} bodies).2.unread)
    (hne : octets ≠ (writeAll limit {} bodies).2.unread) :
    ∃ whole next after part, accepted limit bodies = whole ++ next :: after ∧
      octets = whole.flatMap encode ++ part ∧ Unfinished next part ∧
      readAll limit ⟨octets, true⟩ = ⟨whole, some (ending part), ⟨[], true⟩⟩ ∧
      ((ending part = .ok none ↔ part = []) ↔ part = [] ∨ 4 ≤ part.length) := by
  have hwritten : (writeAll limit {} bodies).2.unread = (accepted limit bodies).flatMap encode := by
    rw [writeAll_eq limit rfl]
    rfl
  rw [hwritten] at hcut hne
  obtain ⟨whole, next, after, part, hsplit, rfl, hpart⟩ := exists_unfinished_of_prefix hcut hne
  refine ⟨whole, next, after, part, hsplit, rfl, hpart, ?_, ending_iff⟩
  have hfits (b : List UInt8) (hb : b ∈ whole ++ next :: after) :
      b.length ≤ limit ∧ b.length < UInt32.size := by
    rw [← hsplit] at hb
    have hlimit := length_le_of_mem_accepted hb
    exact ⟨hlimit, hsound b (List.mem_filter.1 hb).1 hlimit⟩
  obtain ⟨hlimit, h32⟩ := hfits next (by simp)
  rw [readAll_flatMap_encode (fun b hb => hfits b (List.mem_append_left _ hb)),
    readAll_of_other (hpart.read_eq hlimit h32) fun _ => ending_ne_frame, List.append_nil]

/-- Two bodies. -/
def cutBodies : List (List UInt8) := [[1, 2], [7]]

/-- The first frame, and the second without the octet of its body. -/
def cutBody : List UInt8 := encode [1, 2] ++ [0, 0, 0, 1]

theorem readAll_of_cut_cutBody :
    (∀ b ∈ cutBodies, Sound 8 b) ∧ cutBody <+: (writeAll 8 {} cutBodies).2.unread ∧
      cutBody ≠ (writeAll 8 {} cutBodies).2.unread ∧
      readAll 8 ⟨cutBody, true⟩
        = ⟨[[1, 2]], some (.error (.system .unexpectedEnd)), ⟨[], true⟩⟩ := by
  have hsound : ∀ b ∈ cutBodies, Sound 8 b := by decide
  have hcut : cutBody <+: (writeAll 8 {} cutBodies).2.unread := by decide
  have hne : cutBody ≠ (writeAll 8 {} cutBodies).2.unread := by decide
  refine ⟨hsound, hcut, hne, ?_⟩
  obtain ⟨whole, next, after, part, hsplit, hoctets, hpart, hread, -⟩ :=
    readAll_of_cut hsound hcut hne
  have haccepted : accepted 8 cutBodies = [[1, 2], [7]] := by decide
  rw [haccepted] at hsplit
  rcases whole with _ | ⟨first, _ | ⟨second, whole⟩⟩
  · -- the first frame has come whole, so it is not the unfinished one
    cases hsplit
    cases hoctets
    exact absurd hpart.front (by decide)
  · cases hsplit
    obtain rfl : part = [0, 0, 0, 1] := (List.append_cancel_left hoctets).symm
    exact hread
  · simp at hsplit

/-- The first frame, and two of the four octets of the second one's length. -/
def cutLength : List UInt8 := encode [1, 2] ++ [0, 0]

/-- **A length that breaks off is taken for the end.**  The second frame has begun, and the reader
finds just what it finds where nothing of it has come. -/
theorem readAll_cutLength :
    cutLength <+: (writeAll 8 {} cutBodies).2.unread ∧ cutLength = encode [1, 2] ++ [0, 0] ∧
      Unfinished [7] [0, 0] ∧
      readAll 8 ⟨cutLength, true⟩ = ⟨[[1, 2]], some (.ok none), ⟨[], true⟩⟩ ∧
      readAll 8 ⟨encode [1, 2], true⟩ = ⟨[[1, 2]], some (.ok none), ⟨[], true⟩⟩ := by
  have hfits : ∀ b ∈ [([1, 2] : List UInt8)], b.length ≤ 8 ∧ b.length < UInt32.size := by decide
  have hread (part : List UInt8) (hpart : part.length < 4) :
      readAll 8 ⟨encode [1, 2] ++ part, true⟩ = ⟨[[1, 2]], some (.ok none), ⟨[], true⟩⟩ := by
    have hall := readAll_flatMap_encode hfits part true
    rw [readAll_of_other (read_of_length_lt hpart) nofun] at hall
    exact hall
  exact ⟨by decide, rfl, ⟨by decide, by decide⟩, hread [0, 0] (by decide), hread [] (by decide)⟩

end TopicDirectory.Frame
