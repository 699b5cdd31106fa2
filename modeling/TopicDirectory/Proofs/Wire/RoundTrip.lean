import TopicDirectory.Proofs.Json.Values
import TopicDirectory.Wire.Command
import TopicDirectory.Wire.Reply

/-!
# What is sent is received

Every value is read from its octets (`Wire.Value.decode?_encode`), whatever its strings, integers,
records and publishers are: the body of each kind can be written and is read from its own form.
So are the commands and the replies that are made of values (`Wire.Command.decode_encode`,
`Wire.RegisterReply.ofValue_toValue`, `Wire.StatusReply.ofValue_toValue`); a candidate is received
without the id that it may have had.
-/

namespace TopicDirectory

/-! ## Records -/

namespace Record

theorem wellFormed_idToJson (id : Option UInt32) : (idToJson id).WellFormed := by
  cases id with
  | none => rw [idToJson, Json.WellFormed]; exact trivial
  | some id => exact Json.wellFormed_ofInt _

theorem wellFormed_toJson (r : Record) : r.toJson.WellFormed := by
  apply Json.wellFormed_ofFields
  intro f hf
  simp only [List.mem_cons, List.not_mem_nil, or_false] at hf
  rcases hf with rfl | rfl | rfl | rfl
  · exact wellFormed_idToJson r.id
  · exact Json.wellFormed_ofString r.address
  · exact Json.wellFormed_ofString r.name
  · exact Json.wellFormed_ofStrings r.topics

@[simp] theorem idOfJson?_idToJson (id : Option UInt32) : idOfJson? (idToJson id) = some id := by
  cases id with
  | none => rfl
  | some id =>
    have h : (Json.ofInt id.toNat).natBelow? UInt32.size = some id.toNat :=
      Json.natBelow?_ofInt id.toNat_lt
    rw [idToJson]
    show ((Json.ofInt id.toNat).natBelow? UInt32.size).map _ = _
    rw [h, Option.map_some, UInt32.ofNat_toNat]

/-- A record is read from its own form. -/
@[simp] theorem ofJson?_toJson (r : Record) : ofJson? r.toJson = some r := by
  have hfields : r.toJson.fields? fieldNames = some [some (idToJson r.id),
      some (.ofString r.address), some (.ofString r.name), some (.ofStrings r.topics)] := by
    rw [toJson, Json.fields?_ofFields]
    rfl
  rw [ofJson?, hfields]
  simp [Json.fieldOr]

end Record

/-! ## Snapshots -/

namespace Snapshot

theorem wellFormed_toJson (s : Snapshot) : s.toJson.WellFormed := by
  apply Json.wellFormed_ofFields
  intro f hf
  simp only [List.mem_cons, List.not_mem_nil, or_false] at hf
  rcases hf with rfl | rfl
  · exact Json.wellFormed_ofInt _
  · apply Json.wellFormed_ofFields
    intro g hg
    obtain ⟨e, -, rfl⟩ := List.mem_map.1 hg
    exact e.2.wellFormed_toJson

@[simp] theorem idOfName?_digits (id : UInt32) :
    idOfName? (.ofString (String.ofList (Decimal.digits id.toNat))) = some id := by
  rw [idOfName?, Json.unescaped?_ofString fun _ => Decimal.isDigit_of_mem_digits]
  simp [id.toNat_lt_size]

/-- The publishers of a snapshot are read from the members that name their ids. -/
theorem publishersOfJson?_ofFields (m : IdMap Record) :
    publishersOfJson? (.ofFields <| m.entries.map fun e =>
      (String.ofList (Decimal.digits e.1.toNat), e.2.toJson)) = some m := by
  have hentry : ∀ e : UInt32 × Record, entryOfMember?
      (.ofString (String.ofList (Decimal.digits e.1.toNat)), e.2.toJson) = some e := by
    intro e
    simp [entryOfMember?]
  have hentries : ∀ es : List (UInt32 × Record), (es.map fun e =>
      (Json.Text.ofString (String.ofList (Decimal.digits e.1.toNat)), e.2.toJson)).mapM
        entryOfMember? = some es := by
    intro es
    induction es with
    | nil => rfl
    | cons e es ih => simp [List.map_cons, List.mapM_cons, hentry, ih]
  rw [Json.ofFields, publishersOfJson?, List.map_map]
  rw [show ((fun f : String × Json => (Json.Text.ofString f.1, f.2)) ∘ fun e : UInt32 × Record =>
    (String.ofList (Decimal.digits e.1.toNat), e.2.toJson)) = _ from rfl]
  simp [Function.comp_def, hentries]

/-- A snapshot is read from its own form. -/
@[simp] theorem ofJson?_toJson (s : Snapshot) : ofJson? s.toJson = some s := by
  have hfields : s.toJson.fields? fieldNames = some [some (.ofInt s.generation.toNat),
      some (.ofFields <| s.publishers.entries.map fun e =>
        (String.ofList (Decimal.digits e.1.toNat), e.2.toJson))] := by
    rw [toJson, Json.fields?_ofFields]
    rfl
  have hgeneration : (Json.ofInt s.generation.toNat).natBelow? UInt64.size
      = some s.generation.toNat := Json.natBelow?_ofInt s.generation.toNat_lt
  rw [ofJson?, hfields]
  simp [Json.required, hgeneration, publishersOfJson?_ofFields]

end Snapshot

/-! ## Values -/

namespace Wire.Value

theorem wellFormed_body (v : Value) : v.body.WellFormed := by
  cases v with
  | int n => exact Json.wellFormed_ofInt _
  | text s => exact Json.wellFormed_ofString s
  | texts ss => exact Json.wellFormed_ofStrings ss
  | record r => exact r.wellFormed_toJson
  | directory s => exact s.wellFormed_toJson

theorem wellFormed_toJson (v : Value) : v.toJson.WellFormed := by
  apply Json.wellFormed_ofFields
  intro f hf
  simp only [List.mem_cons, List.not_mem_nil, or_false] at hf
  rcases hf with rfl | rfl
  · exact Json.wellFormed_ofString _
  · exact v.wellFormed_body

theorem int64?_ofInt (n : Int64) : int64? (.ofInt n.toInt) = some n := by
  rw [int64?, Json.int?_ofInt]
  show (if _ then _ else _) = _
  rw [if_pos ⟨n.minValue_le_toInt, n.toInt_le⟩, Int64.ofInt_toInt]

/-- The body of a value is read by its kind. -/
@[simp] theorem ofBody?_body (v : Value) : ofBody? v.body v.kind = some v := by
  cases v <;> simp [body, kind, ofBody?, int64?_ofInt]

/-- The body is read by the tag; how, depends on which of them comes first. -/
theorem ofJson?_ofFields {fs : List (String × Json)} {k : Kind} {body : Json}
    (htag : Json.unique? fs "type" = some (some (.ofString k.tag)))
    (hbody : Json.unique? fs "value" = some (some body)) :
    ofJson? (.ofFields fs) = if bodyFirst fs then ofHeldBody? body k else ofBody? body k := by
  have hkind : kindOfJson? (.ofString k.tag) = some k := by
    rw [Json.ofString, kindOfJson?]
    simp
  rw [Json.ofFields, ofJson?, Json.named?_ofFields]
  simp [htag, hbody, hkind]

/-- What comes after the tag is read as a body of its kind. -/
theorem ofJson?_tagged (k : Kind) (body : Json) :
    ofJson? (.ofFields [("type", .ofString k.tag), ("value", body)]) = ofBody? body k :=
  ofJson?_ofFields rfl rfl

@[simp] theorem ofJson?_toJson (v : Value) : ofJson? v.toJson = some v := by
  rw [toJson, ofJson?_tagged, ofBody?_body]

/-- Every value is read from its octets. -/
@[simp] theorem decode?_encode (v : Value) : decode? v.encode = some v := by
  rw [decode?, encode, Json.parse?_render v.wellFormed_toJson, Option.bind_some, ofJson?_toJson]

@[simp] theorem decode_encode (v : Value) : decode v.encode = .ok v := by
  rw [decode, decode?_encode]

end Wire.Value

@[simp] theorem Wire.decodeSnapshot_encodeSnapshot (s : Snapshot) :
    decodeSnapshot (encodeSnapshot s) = .ok s := by
  rw [decodeSnapshot, encodeSnapshot, Value.decode_encode]
  rfl

/-- Values with the same octets are the same value. -/
theorem Wire.Value.encode_injective {v w : Value} (h : v.encode = w.encode) : v = w := by
  have hv := decode?_encode v
  rw [h, decode?_encode] at hv
  exact (Option.some.inj hv).symm

/-- **Nothing is lost on the wire.**  Every value is read from its octets, so no two values have the
same ones, and every snapshot is read from its own. -/
theorem Wire.Value.encode_lossless :
    (∀ v : Value, decode v.encode = .ok v) ∧ (∀ v w : Value, v.encode = w.encode ↔ v = w) ∧
      ∀ s : Snapshot, decodeSnapshot (encodeSnapshot s) = .ok s := by
  refine ⟨decode_encode, fun v w => ⟨encode_injective, ?_⟩, decodeSnapshot_encodeSnapshot⟩
  rintro rfl
  rfl

/-! ## Commands -/

namespace Wire.Command

@[simp] theorem id?_digits (id : UInt32) :
    id? (String.ofList (Decimal.digits id.toNat)) = some id := by
  have hdigit : ∀ m : Fin 10, Blank.isBlank (Nat.digitChar m) = false := by decide
  have hblank : ∀ c ∈ Decimal.digits id.toNat, Blank.isBlank c = false := by
    intro c hc
    obtain ⟨m, rfl⟩ := Json.exists_digitChar (Decimal.isDigit_of_mem_digits hc)
    exact hdigit m
  rw [id?, String.toList_ofList, Blank.trim_eq_self hblank, Decimal.nat?_digits]
  simp [id.toNat_lt_size]

/-- The command as it is received: the id of a candidate is not sent. -/
def sent : Command → Command
  | register candidate => register { candidate with id := none }
  | c => c

/-- Every command is read from its frame. -/
theorem decode_encode (c : Command) : decode c.encode = .ok c.sent := by
  cases c with
  | register candidate =>
    simp [encode, header, payload?, decode, recordOf, sent, bind, Except.bind, pure, Except.pure]
  | deregister id =>
    simp [encode, header, payload?, decode, Value.asText, sent, bind, Except.bind, pure, Except.pure]
  | snapshot => rfl
  | setTopics id topics =>
    simp [encode, header, payload?, decode, recordOf, sent, bind, Except.bind, pure, Except.pure]

end Wire.Command

/-! ## Replies -/

namespace Wire

theorem toInt_ofInt_toNat (id : UInt32) : (Int64.ofInt id.toNat).toInt = id.toNat := by
  have := id.toNat_lt
  exact Int64.toInt_ofInt_of_le (by omega) (by omega)

/-- The answer to a registration is read from its value. -/
@[simp] theorem RegisterReply.ofValue_toValue (r : RegisterReply) :
    ofValue r.toValue = .ok r := by
  cases r with
  | registered id =>
    have hlt : id.toNat < UInt32.size := id.toNat_lt
    rw [toValue, ofValue, toInt_ofInt_toNat]
    simp [hlt]
  | refused r => cases r <;> rfl

theorem Refusal.text_ne_success (r : Refusal) : r.text ≠ StatusReply.success := by
  cases r <;> decide

/-- The answer to a removal or to new topics is read from its value. -/
@[simp] theorem StatusReply.ofValue_toValue (r : StatusReply) : ofValue r.toValue = .ok r := by
  cases r with
  | done => rfl
  | refused r => rw [toValue, ofValue, if_neg r.text_ne_success, Refusal.ofText?_text]

end Wire

end TopicDirectory
