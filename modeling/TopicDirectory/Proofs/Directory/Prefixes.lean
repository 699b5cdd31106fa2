import TopicDirectory.Directory.Server
import TopicDirectory.Proofs.Json.Prefixes
import TopicDirectory.Proofs.Wire.RoundTrip

/-!
# Frames that break off

Every value is written as an object, so what comes of it is read only if all of it comes
(`Wire.Value.decode_of_prefix`).  A command frame that breaks off is therefore no command, and a
directory that gets it changes nothing (`Directory.refused_of_prefix`); and nothing that can be
written is the beginning of something else that can be (`Wire.Written.eq_of_prefix`).
-/

namespace TopicDirectory

namespace Wire

theorem Value.decode_of_prefix {v : Value} {front : List UInt8} (hfront : front <+: v.encode)
    (hne : front ≠ v.encode) : Value.decode front = .error .undecodable := by
  have hnone : Json.parse? front = none := Json.parse?_of_prefix v.wellFormed_toJson hfront hne
  rw [Value.decode, Value.decode?, hnone]
  rfl

/-- What comes of a snapshot is no snapshot. -/
theorem decodeSnapshot_of_prefix {s : Snapshot} {front : List UInt8}
    (hfront : front <+: encodeSnapshot s) (hne : front ≠ encodeSnapshot s) :
    decodeSnapshot front = .error .undecodable := by
  rw [decodeSnapshot, Value.decode_of_prefix hfront hne]
  rfl

namespace Command

/-- Where the value is not read there is no command. -/
theorem decode_of_undecodable {c : Command} {v : Value} (hv : c.payload? = some v)
    {payload : List UInt8} (h : Value.decode payload = .error .undecodable) :
    decode (c.header :: payload) = .error .undecodable := by
  cases c with
  | register candidate => simp [decode, header, h, bind, Except.bind]
  | deregister id => simp [decode, header, h, bind, Except.bind]
  | snapshot => cases hv
  | setTopics id topics => simp [decode, header, h, bind, Except.bind]

/-- What comes of a command is no command: nothing has come, or the value breaks off. -/
theorem decode_of_prefix {c : Command} {front : List UInt8} (hfront : front <+: c.encode)
    (hne : front ≠ c.encode) :
    decode front = .error (if front = [] then .emptyFrame else .undecodable) := by
  cases front with
  | nil => rfl
  | cons header payload =>
    rw [encode] at hfront hne
    obtain ⟨rfl, hpayload⟩ := List.cons_prefix_cons.1 hfront
    rw [if_neg (List.cons_ne_nil _ _)]
    cases hv : c.payload? with
    | none =>
      rw [hv] at hpayload hne
      exact absurd (by rw [List.prefix_nil.1 hpayload]) hne
    | some v =>
      rw [hv] at hpayload hne
      refine decode_of_undecodable hv (Value.decode_of_prefix hpayload fun heq => hne ?_)
      rw [heq]

end Command

/-- Whether octets are the frame of a command, or those of a snapshot. -/
def Written (octets : List UInt8) : Prop :=
  (∃ c : Command, octets = c.encode) ∨ ∃ s : Snapshot, octets = encodeSnapshot s

/-- A snapshot begins with a brace. -/
theorem encodeSnapshot_eq_cons (s : Snapshot) :
    ∃ rest, encodeSnapshot s = Json.ascii '\x7b' :: rest := by
  rw [encodeSnapshot, Value.encode, Value.toJson, Json.ofFields, Json.render]
  exact ⟨_, rfl⟩

/-- No header is a brace. -/
theorem Command.header_ne (c : Command) : c.header ≠ Json.ascii '\x7b' := by
  cases c <;> rw [header] <;> decide

/-- The frame of a command and the octets of a snapshot differ in the first octet. -/
theorem not_prefix_encodeSnapshot (c : Command) (s : Snapshot) :
    ¬ c.encode <+: encodeSnapshot s ∧ ¬ encodeSnapshot s <+: c.encode := by
  obtain ⟨rest, hrest⟩ := encodeSnapshot_eq_cons s
  rw [hrest, Command.encode]
  constructor
  · intro h
    exact c.header_ne (List.cons_prefix_cons.1 h).1
  · intro h
    exact c.header_ne (List.cons_prefix_cons.1 h).1.symm

/-- What can be written is not the beginning of anything else that can be. -/
theorem Written.eq_of_prefix {front octets : List UInt8} (hfront : Written front)
    (hoctets : Written octets) (h : front <+: octets) : front = octets := by
  refine Decidable.byContradiction fun hne => ?_
  rcases hoctets with ⟨c, rfl⟩ | ⟨s, rfl⟩
  · have hrefused := Command.decode_of_prefix h hne
    rcases hfront with ⟨c', rfl⟩ | ⟨s, rfl⟩
    · rw [Command.decode_encode] at hrefused
      cases hrefused
    · exact absurd h (not_prefix_encodeSnapshot c s).2
  · rcases hfront with ⟨c, rfl⟩ | ⟨s', rfl⟩
    · exact absurd h (not_prefix_encodeSnapshot c s).1
    · have hrefused := decodeSnapshot_of_prefix h hne
      rw [decodeSnapshot_encodeSnapshot] at hrefused
      cases hrefused

end Wire

/-! ## What a directory does -/

namespace Directory

open Wire (Command Written encodeSnapshot decodeSnapshot)

theorem changed_of_error {frame : List UInt8} {fault : Wire.Fault}
    (h : Command.decode frame = .error fault) (r : Registry) : (dispatch r frame).changed = none := by
  rw [dispatch, h]

/-- A frame that is no command leaves all as it is. -/
theorem respond_of_error {frame : List UInt8} {fault : Wire.Fault}
    (h : Command.decode frame = .error fault) (s : State) : (respond s frame).2 = s := by
  rw [respond, changed_of_error h]

/-- **What breaks off is not carried out.**  A command frame that breaks off, wherever it does, is
refused, and the directory that gets it stays as it is; what comes of a snapshot is refused as well.
So nothing that can be written is the beginning of something else that can be. -/
theorem refused_of_prefix :
    (∀ (c : Command) (front : List UInt8), front <+: c.encode → front ≠ c.encode →
      (∃ fault, Command.decode front = .error fault) ∧
        (∀ r : Registry, (dispatch r front).changed = none ∧ (dispatch r front).registry r = r) ∧
        ∀ s : State, (respond s front).2 = s) ∧
      (∀ (s : Snapshot) (front : List UInt8), front <+: encodeSnapshot s →
        front ≠ encodeSnapshot s → ∃ fault, decodeSnapshot front = .error fault) ∧
      ∀ front octets, Written front → Written octets → front <+: octets → front = octets := by
  refine ⟨fun c front hfront hne => ?_, fun s front hfront hne => ?_, fun front octets => ?_⟩
  · have hrefused := Command.decode_of_prefix hfront hne
    refine ⟨⟨_, hrefused⟩, fun r => ⟨changed_of_error hrefused r, ?_⟩, respond_of_error hrefused⟩
    rw [Outcome.registry, changed_of_error hrefused r]
    rfl
  · exact ⟨_, Wire.decodeSnapshot_of_prefix hfront hne⟩
  · exact Written.eq_of_prefix

/-- A command without its last three octets: its id has lost a digit, and nothing closes the value. -/
def cutFrame : List UInt8 := (Command.deregister 12).encode.take 25

/-- A snapshot with one publisher. -/
def cutSnapshot : Snapshot := ⟨1, .ofList [(0, { id := some 0, address := "tcp://h:1" })]⟩

theorem refused_of_prefix_cutFrame :
    let c := Command.deregister 12
    let front := (encodeSnapshot cutSnapshot).dropLast
    (cutFrame <+: c.encode ∧ cutFrame ≠ c.encode ∧
      (∃ fault, Command.decode cutFrame = .error fault) ∧
      (dispatch {} cutFrame).registry {} = {} ∧ ¬ Written cutFrame) ∧
      front <+: encodeSnapshot cutSnapshot ∧ front ≠ encodeSnapshot cutSnapshot ∧
      ∃ fault, decodeSnapshot front = .error fault := by
  intro c front
  have hfront : cutFrame <+: c.encode := List.take_prefix _ _
  have hne : cutFrame ≠ c.encode := by decide +kernel
  have hfront' : front <+: encodeSnapshot cutSnapshot := List.dropLast_prefix _
  have hne' : front ≠ encodeSnapshot cutSnapshot := by decide +kernel
  obtain ⟨hcommands, hsnapshots, hwritten⟩ := refused_of_prefix
  obtain ⟨hrefused, hkept, -⟩ := hcommands c cutFrame hfront hne
  refine ⟨⟨hfront, hne, hrefused, (hkept {}).2, fun h => hne ?_⟩, hfront', hne',
    hsnapshots cutSnapshot front hfront' hne'⟩
  exact hwritten cutFrame c.encode h (.inl ⟨c, rfl⟩) hfront

end Directory

end TopicDirectory
