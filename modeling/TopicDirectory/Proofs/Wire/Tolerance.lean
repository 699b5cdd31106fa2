import TopicDirectory.Config.Client
import TopicDirectory.Config.Server
import TopicDirectory.Proofs.Json.Members
import TopicDirectory.Proofs.Wire.RoundTrip

/-!
# Old and new forms of a record

A record and the settings of either side are read from every object that holds their fields, in
whatever order, without those that have their default, and with members that this version does not
know, however the text is laid out (`read_of_holds`).  So a publisher may send fields that are not
known here, and a file need only say what differs from the defaults.
-/

namespace TopicDirectory

/-! ## Records -/

namespace Record

/-- A record is read from every object that holds its fields. -/
theorem ofJson?_of_holds {r : Record} {members : List (Json.Text × Json)}
    (h : Json.Holds r.toJson ({} : Record).toJson members) :
    ofJson? (.object members) = some r := by
  obtain ⟨xs, hfields, hheld⟩ := h.fields?_eq fieldNames rfl (by decide)
  rcases hheld with _ | ⟨hid, _ | ⟨haddress, _ | ⟨hname, _ | ⟨htopics, _ | _⟩⟩⟩⟩
  have hid : Json.fieldOr none idOfJson? _ = some r.id :=
    Json.fieldOr_of_held hid (by simp) (by simp)
  have haddress : Json.fieldOr "" Json.string? _ = some r.address :=
    Json.fieldOr_of_held haddress (by simp) (by simp)
  have hname : Json.fieldOr "" Json.string? _ = some r.name :=
    Json.fieldOr_of_held hname (by simp) (by simp)
  have htopics : Json.fieldOr [] Json.strings? _ = some r.topics :=
    Json.fieldOr_of_held htopics (by simp) (by simp)
  rw [ofJson?, hfields]
  simp [hid, haddress, hname, htopics]

end Record

theorem Wire.Value.decode_of_holds {r : Record} {members : List (Json.Text × Json)}
    {octets : List UInt8} (h : Json.Holds r.toJson ({} : Record).toJson members)
    (hoctets : Json.Spaced
      (.ofFields [("type", .ofString "record"), ("value", .object members)]) octets) :
    decode octets = .ok (.record r) := by
  have hbody : ofJson? (.ofFields [("type", .ofString "record"), ("value", .object members)])
      = some (.record r) := by
    rw [show "record" = Kind.record.tag from rfl, ofJson?_tagged, ofBody?,
      Record.ofJson?_of_holds h, Option.map_some]
  rw [decode, decode?, Json.parse?_spaced hoctets, Option.bind_some, hbody]

/-! ## Settings -/

namespace Config

@[simp] theorem port?_ofInt (port : UInt16) : port? (.ofInt port.toNat) = some port := by
  rw [port?, Json.natBelow?_ofInt port.toNat_lt, Option.map_some, UInt16.ofNat_toNat]

@[simp] theorem size?_ofInt (size : UInt64) : size? (.ofInt size.toNat) = some size := by
  rw [size?, Json.natBelow?_ofInt size.toNat_lt, Option.map_some, UInt64.ofNat_toNat]

/-- A file is read like the value of which it holds a text. -/
theorem load_of_spaced {α : Type} {read : Json → Option α} {j : Json} {text : String} {c : α}
    (htext : Json.Spaced j (Utf8.encode text)) (hread : read j = some c) :
    load read (some (Utf8.encode text)) = .ok c := by
  simp [load, Json.parse?_spaced htext, hread]

/-- The settings of a directory are read from every object that holds them. -/
theorem Server.ofJson?_of_holds {c : Server} {members : List (Json.Text × Json)}
    (h : Json.Holds c.toJson ({} : Server).toJson members) :
    ofJson? (.object members) = some c := by
  -- with a name for the defaults their numerals are not computed
  generalize hdefault : ({} : Server) = d at h
  obtain ⟨xs, hfields, hheld⟩ := h.fields?_eq fieldNames rfl (by decide)
  rcases hheld with
    _ | ⟨hhost, _ | ⟨hcommand, _ | ⟨hbroadcast, _ | ⟨hsize, _ | ⟨hcapacity, _ | _⟩⟩⟩⟩⟩
  have hhost : Json.fieldOr d.bindHost Json.string? _ = some c.bindHost :=
    Json.fieldOr_of_held hhost (by simp) (by simp)
  have hcommand : Json.fieldOr d.commandPort port? _ = some c.commandPort :=
    Json.fieldOr_of_held hcommand (by simp) (by simp)
  have hbroadcast : Json.fieldOr d.broadcastPort port? _ = some c.broadcastPort :=
    Json.fieldOr_of_held hbroadcast (by simp) (by simp)
  have hsize : Json.fieldOr d.messageSize size? _ = some c.messageSize :=
    Json.fieldOr_of_held hsize (by simp) (by simp)
  have hcapacity : Json.fieldOr d.broadcastCapacity size? _ = some c.broadcastCapacity :=
    Json.fieldOr_of_held hcapacity (by simp) (by simp)
  subst hdefault
  rw [ofJson?, hfields]
  simp [hhost, hcommand, hbroadcast, hsize, hcapacity]

/-- The settings of a caller are read from every object that holds them. -/
theorem Client.ofJson?_of_holds {c : Client} {members : List (Json.Text × Json)}
    (h : Json.Holds c.toJson ({} : Client).toJson members) :
    ofJson? (.object members) = some c := by
  generalize hdefault : ({} : Client) = d at h
  obtain ⟨xs, hfields, hheld⟩ := h.fields?_eq fieldNames rfl (by decide)
  rcases hheld with _ | ⟨hhost, _ | ⟨hcommand, _ | ⟨hbroadcast, _ | ⟨htimeout, _ | ⟨hsize,
    _ | ⟨hcapacity, _ | _⟩⟩⟩⟩⟩⟩
  have hhost : Json.fieldOr d.directoryHost Json.string? _ = some c.directoryHost :=
    Json.fieldOr_of_held hhost (by simp) (by simp)
  have hcommand : Json.fieldOr d.commandPort port? _ = some c.commandPort :=
    Json.fieldOr_of_held hcommand (by simp) (by simp)
  have hbroadcast : Json.fieldOr d.broadcastPort port? _ = some c.broadcastPort :=
    Json.fieldOr_of_held hbroadcast (by simp) (by simp)
  have htimeout : Json.fieldOr d.timeoutMs size? _ = some c.timeoutMs :=
    Json.fieldOr_of_held htimeout (by simp) (by simp)
  have hsize : Json.fieldOr d.messageSize size? _ = some c.messageSize :=
    Json.fieldOr_of_held hsize (by simp) (by simp)
  have hcapacity : Json.fieldOr d.publishCapacity size? _ = some c.publishCapacity :=
    Json.fieldOr_of_held hcapacity (by simp) (by simp)
  subst hdefault
  rw [ofJson?, hfields]
  simp [hhost, hcommand, hbroadcast, htimeout, hsize, hcapacity]

end Config

/-- **Members are read by name.**  A record that is sent with its tag first, and the settings of a
directory and of a caller, are read from every text of an object that holds their fields: in any
order, without any of those that have their default, and among any members of other names, whatever
values these have. -/
theorem read_of_holds :
    (∀ (r : Record) (members : List (Json.Text × Json)) (octets : List UInt8),
      Json.Holds r.toJson ({} : Record).toJson members →
      Json.Spaced (.ofFields [("type", .ofString "record"), ("value", .object members)]) octets →
      Wire.Value.decode octets = .ok (.record r)) ∧
    (∀ (c : Config.Server) (members : List (Json.Text × Json)) (text : String),
      Json.Holds c.toJson ({} : Config.Server).toJson members →
      Json.Spaced (.object members) (Utf8.encode text) →
      Config.Server.load (some (Utf8.encode text)) = .ok c) ∧
    ∀ (c : Config.Client) (members : List (Json.Text × Json)) (text : String),
      Json.Holds c.toJson ({} : Config.Client).toJson members →
      Json.Spaced (.object members) (Utf8.encode text) →
      Config.Client.load (some (Utf8.encode text)) = .ok c :=
  ⟨fun _ _ _ h hoctets => Wire.Value.decode_of_holds h hoctets,
    fun _ _ _ h htext => Config.load_of_spaced htext (Config.Server.ofJson?_of_holds h),
    fun _ _ _ h htext => Config.load_of_spaced htext (Config.Client.ofJson?_of_holds h)⟩

/-- A member that is not known here. -/
def unknownMember : String × Json := ("zone", .array [.ofFields [], .ofInt (-1)])

/-- A record's members with its name before its address, without its id and its topics. -/
def partialRecord : List (String × Json) :=
  [unknownMember, ("name", .ofString "a"), ("address", .ofString "tcp://h:1")]

/-- The members of a directory's settings with only one of these. -/
def partialServer : List (String × Json) := [unknownMember, ("command_port", .ofInt 0)]

/-- The members of a caller's settings with only one of these. -/
def partialClient : List (String × Json) := [unknownMember, ("request_timeout_ms", .ofInt 1)]

theorem wellFormed_unknownMember : unknownMember.2.WellFormed := by
  rw [unknownMember, Json.WellFormed, Json.wellFormedItems_iff]
  intro j hj
  simp only [List.mem_cons, List.not_mem_nil, or_false] at hj
  rcases hj with rfl | rfl
  · exact Json.wellFormed_ofFields nofun
  · exact Json.wellFormed_ofInt _

/-- The text of an object with blanks around it. -/
def spacedText (fs : List (String × Json)) : List UInt8 :=
  [0x20] ++ ((Json.ofFields fs).render ++ [0x0a])

theorem spaced_spacedText {fs : List (String × Json)} (h : ∀ f ∈ fs, f.2.WellFormed) :
    Json.Spaced (.ofFields fs) (spacedText fs) :=
  .intro (List.forall_mem_singleton.2 (by decide)) (Json.spelled_render _ (Json.wellFormed_ofFields h))
    (List.forall_mem_singleton.2 (by decide))

theorem holds_partialRecord :
    Json.Holds (Record.toJson { address := "tcp://h:1", name := "a" }) (Record.toJson {})
      (partialRecord.map fun f => (Json.Text.ofString f.1, f.2)) := by
  have hperm : partialRecord.Perm
      ([("address", .ofString "tcp://h:1"), ("name", .ofString "a")] ++ [unknownMember]) :=
    (List.reverse_perm _).symm
  exact .of_perm hperm (.cons _ (.cons_cons _ (.cons_cons _ (.cons _ .slnil)))) (by simp)
    (by decide)

theorem holds_partialServer :
    Json.Holds (Config.Server.toJson { commandPort := 0 }) (Config.Server.toJson {})
      (partialServer.map fun f => (Json.Text.ofString f.1, f.2)) := by
  have hperm : partialServer.Perm ([("command_port", .ofInt 0)] ++ [unknownMember]) := .swap _ _ _
  exact .of_perm hperm (.cons _ (.cons_cons _ (.cons _ (.cons _ (.cons _ .slnil))))) (by simp)
    (by decide)

theorem holds_partialClient :
    Json.Holds (Config.Client.toJson { timeoutMs := 1 }) (Config.Client.toJson {})
      (partialClient.map fun f => (Json.Text.ofString f.1, f.2)) := by
  have hperm : partialClient.Perm ([("request_timeout_ms", .ofInt 1)] ++ [unknownMember]) :=
    .swap _ _ _
  exact .of_perm hperm (.cons _ (.cons _ (.cons _ (.cons_cons _ (.cons _ (.cons _ .slnil))))))
    (by simp) (by decide)

/-- Each without some of its fields, and with a member that is not known. -/
theorem read_of_holds_partialObjects :
    Wire.Value.decode
        (spacedText [("type", .ofString "record"), ("value", .ofFields partialRecord)])
      = .ok (.record { address := "tcp://h:1", name := "a" }) ∧
    Config.Server.load (some (Utf8.encode " \x7b\"zone\":[\x7b\x7d,-1],\"command_port\":0\x7d\n"))
      = .ok { commandPort := 0 } ∧
    Config.Client.load
        (some (Utf8.encode " \x7b\"zone\":[\x7b\x7d,-1],\"request_timeout_ms\":1\x7d\n"))
      = .ok { timeoutMs := 1 } := by
  have hrecord : ∀ f ∈ partialRecord, f.2.WellFormed :=
    List.forall_mem_cons.2 ⟨wellFormed_unknownMember, List.forall_mem_cons.2
      ⟨Json.wellFormed_ofString _, List.forall_mem_singleton.2 (Json.wellFormed_ofString _)⟩⟩
  have hserver : ∀ f ∈ partialServer, f.2.WellFormed :=
    List.forall_mem_cons.2
      ⟨wellFormed_unknownMember, List.forall_mem_singleton.2 (Json.wellFormed_ofInt _)⟩
  have hclient : ∀ f ∈ partialClient, f.2.WellFormed :=
    List.forall_mem_cons.2
      ⟨wellFormed_unknownMember, List.forall_mem_singleton.2 (Json.wellFormed_ofInt _)⟩
  have hserverText : spacedText partialServer
      = Utf8.encode " \x7b\"zone\":[\x7b\x7d,-1],\"command_port\":0\x7d\n" := by decide +kernel
  have hclientText : spacedText partialClient
      = Utf8.encode " \x7b\"zone\":[\x7b\x7d,-1],\"request_timeout_ms\":1\x7d\n" := by
    decide +kernel
  refine ⟨read_of_holds.1 _ _ _ holds_partialRecord (spaced_spacedText ?_),
    read_of_holds.2.1 _ _ _ holds_partialServer (hserverText ▸ spaced_spacedText hserver),
    read_of_holds.2.2 _ _ _ holds_partialClient (hclientText ▸ spaced_spacedText hclient)⟩
  exact List.forall_mem_cons.2
    ⟨Json.wellFormed_ofString _, List.forall_mem_singleton.2 (Json.wellFormed_ofFields hrecord)⟩

end TopicDirectory
