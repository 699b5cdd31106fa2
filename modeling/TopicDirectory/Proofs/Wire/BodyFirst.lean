import TopicDirectory.Proofs.Json.Keeping
import TopicDirectory.Proofs.Wire.RoundTrip

/-!
# Values whose body comes first

The two members of a value can be written in the other order, the body before its tag
(`Value.encodeBodyFirst`).  Such a body is kept until the tag is known, and every body can be kept;
but what was kept is not read as a snapshot that has publishers, since the names of their members
are numbers.  So the order does not matter but for such snapshots, and those are refused
(`Value.decode_encodeBodyFirst`).
-/

namespace TopicDirectory

theorem Record.keepable_toJson (depth : Nat) (r : Record) :
    r.toJson.keepable (depth + 2) = true := by
  apply Json.keepable_ofFields
  intro f hf
  simp only [List.mem_cons, List.not_mem_nil, or_false] at hf
  rcases hf with rfl | rfl | rfl | rfl
  · cases r.id with
    | none => rw [idToJson, Json.keepable]
    | some id => exact Json.keepable_ofInt _ (Nat.lt_trans id.toNat_lt_size (by decide))
  · exact Json.keepable_ofString _ _
  · exact Json.keepable_ofString _ _
  · exact Json.keepable_ofStrings _ _

theorem Snapshot.keepable_toJson (depth : Nat) (s : Snapshot) :
    s.toJson.keepable (depth + 4) = true := by
  apply Json.keepable_ofFields
  intro f hf
  simp only [List.mem_cons, List.not_mem_nil, or_false] at hf
  rcases hf with rfl | rfl
  · exact Json.keepable_ofInt _ s.generation.toNat_lt_size
  · apply Json.keepable_ofFields
    intro g hg
    obtain ⟨e, -, rfl⟩ := List.mem_map.1 hg
    exact e.2.keepable_toJson depth

namespace Wire.Value

/-- The octets of a value with its body before its tag. -/
def encodeBodyFirst (v : Value) : List UInt8 :=
  (Json.ofFields [("value", v.body), ("type", .ofString v.kind.tag)]).render

/-- Whether a value is a snapshot that has publishers. -/
def listsPublishers : Value → Bool
  | directory s => !s.publishers.isEmpty
  | _ => false

theorem natAbs_toInt_lt (n : Int64) : n.toInt.natAbs < UInt64.size := by
  have hlow := n.le_toInt
  have hhigh := n.toInt_lt
  have hsize : UInt64.size = 2 ^ 64 := rfl
  omega

/-- Every body can be kept. -/
theorem keepable_body (v : Value) : v.body.keepable heldDepth = true := by
  cases v with
  | int n => exact Json.keepable_ofInt _ (natAbs_toInt_lt n)
  | text s => exact Json.keepable_ofString _ s
  | texts ss => exact Json.keepable_ofStrings _ ss
  | record r => exact r.keepable_toJson 124
  | directory s => exact s.keepable_toJson 122

/-- The publishers that a snapshot's body gives are its own. -/
theorem publishers?_toJson (s : Snapshot) :
    (publishers? s.toJson).any (fun p => !isEmptyObject p) = !s.publishers.isEmpty := by
  have hpublishers : publishers? s.toJson = some (.ofFields <| s.publishers.entries.map fun e =>
      (String.ofList (Decimal.digits e.1.toNat), e.2.toJson)) := by
    rw [publishers?, Snapshot.toJson, Json.fields?_ofFields]
    rfl
  rw [hpublishers, IdMap.isEmpty]
  cases s.publishers.entries <;> rfl

/-- A body that was kept is read as its value, unless this is a snapshot that has publishers. -/
theorem ofHeldBody?_body (v : Value) :
    ofHeldBody? v.body v.kind = if v.listsPublishers then none else some v := by
  rw [ofHeldBody?, keepable_body, if_pos rfl, ofBody?_body]
  cases v with
  | directory s =>
    rw [body, publishers?_toJson]
    simp [kind, listsPublishers]
  | _ => rfl

theorem ofJson?_bodyFirst (v : Value) :
    ofJson? (.ofFields [("value", v.body), ("type", .ofString v.kind.tag)])
      = ofHeldBody? v.body v.kind :=
  ofJson?_ofFields rfl rfl

theorem decode?_encodeBodyFirst (v : Value) :
    decode? v.encodeBodyFirst = ofHeldBody? v.body v.kind := by
  have hwritten :
      (Json.ofFields [("value", v.body), ("type", .ofString v.kind.tag)]).WellFormed := by
    apply Json.wellFormed_ofFields
    intro f hf
    simp only [List.mem_cons, List.not_mem_nil, or_false] at hf
    rcases hf with rfl | rfl
    · exact v.wellFormed_body
    · exact Json.wellFormed_ofString _
  rw [decode?, encodeBodyFirst, Json.parse?_render hwritten, Option.bind_some, ofJson?_bodyFirst]

/-- **When the order of the members does not matter.**  A value that is written with its body before
its tag is read as it is, unless it is a snapshot that has publishers: that one is refused. -/
theorem decode_encodeBodyFirst (v : Value) :
    decode v.encodeBodyFirst = if v.listsPublishers then .error .undecodable else .ok v := by
  rw [decode, decode?_encodeBodyFirst, ofHeldBody?_body]
  cases v.listsPublishers <;> rfl

/-- A directory with one publisher. -/
def onePublisher : Snapshot :=
  ⟨1, IdMap.empty.insert 0 { id := some 0, address := "tcp://h:1", name := "a" }⟩

/-- Its snapshot is read if the tag comes first, and refused if the body does. -/
theorem decode_encodeBodyFirst_onePublisher :
    decode (directory onePublisher).encode = .ok (directory onePublisher) ∧
      decode (directory onePublisher).encodeBodyFirst = .error .undecodable := by
  have hread : decode? (directory onePublisher).encode = some (directory onePublisher) := by
    decide +kernel
  have hrefused : decode? (directory onePublisher).encodeBodyFirst = none := by decide +kernel
  exact ⟨by rw [decode, hread], by rw [decode, hrefused]⟩

end Wire.Value

end TopicDirectory
