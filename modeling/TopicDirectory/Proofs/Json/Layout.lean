import TopicDirectory.Proofs.Json.Values

/-!
# Values that spread over lines

However deep a value is indented, what is written of it over lines is one of its texts
(`spelled_renderLines`), so it is read back (`parse?_renderLines`): the line breaks and the blanks
that open a line stand where blanks may stand.

What is written of strings and integers, and of objects of them, is UTF-8 (`Legible`): a character
is written as it is, or, if it is escaped, in ASCII.
-/

namespace TopicDirectory.Json

/-! ## Lines -/

theorem blanks_newLine (depth : Nat) : Blanks (newLine depth) := by
  intro b hb
  rcases List.mem_cons.1 hb with rfl | hb
  · decide
  · rw [List.eq_of_mem_replicate hb]
    decide

theorem Blanks.append {front back : List UInt8} (hfront : Blanks front) (hback : Blanks back) :
    Blanks (front ++ back) := by
  intro b hb
  rcases List.mem_append.1 hb with hb | hb
  · exact hfront b hb
  · exact hback b hb

/-- Blanks may be put around what has blanks around it. -/
theorem Spaced.between {j : Json} {before octets after : List UInt8} (hbefore : Blanks before)
    (h : Spaced j octets) (hafter : Blanks after) : Spaced j (before ++ (octets ++ after)) := by
  cases h with
  | @intro _ front inner back hfront hinner hback =>
    have hspaced := Spaced.intro (hbefore.append hfront) hinner (hback.append hafter)
    simpa only [List.append_assoc] using hspaced

theorem bracketed_cons (depth : Nat) (opening closing : Char) (part : List UInt8)
    (parts : List (List UInt8)) :
    bracketed depth opening closing (part :: parts)
      = ascii opening :: ((newLine (depth + 1)
          ++ (joined (ascii ',' :: newLine (depth + 1)) (part :: parts) ++ newLine depth))
        ++ [ascii closing]) := by
  rw [bracketed, if_neg (List.cons_ne_nil _ _)]
  simp only [List.append_assoc]

mutual

/-- What is written over lines is a text of the value. -/
theorem spelled_renderLines (depth : Nat) : ∀ j : Json, j.WellFormed →
    Spelled j (j.renderLines depth)
  | .null, h | .bool _, h | .number _, h | .string _, h => spelled_render _ h
  | .array [], _ => .emptyArray Blanks.nil
  | .array (v :: vs), h => by
    rw [WellFormed] at h
    rw [renderLines, renderItemLines, bracketed_cons]
    exact .array (spelled_renderItemLines (depth + 1) (blanks_newLine _) (blanks_newLine _)
      (v :: vs) (List.cons_ne_nil _ _) h)
  | .object [], _ => .emptyObject Blanks.nil
  | .object (m :: ms), h => by
    rw [WellFormed] at h
    rw [renderLines, renderMemberLines, bracketed_cons]
    exact .object (spelled_renderMemberLines (depth + 1) (blanks_newLine _) (blanks_newLine _)
      (m :: ms) (List.cons_ne_nil _ _) h)

/-- The line break before an item stands before its text, and the last one after the last item. -/
theorem spelled_renderItemLines (depth : Nat) {before after : List UInt8} (hbefore : Blanks before)
    (hafter : Blanks after) : ∀ vs : List Json, vs ≠ [] → WellFormedItems vs →
    SpelledItems vs
      (before ++ (joined (ascii ',' :: before) (renderItemLines depth vs) ++ after))
  | [], hne, _ => absurd rfl hne
  | [v], _, h => by
    rw [WellFormedItems] at h
    exact .last ((spelled_renderLines depth v h.1).spaced.between hbefore hafter)
  | v :: w :: vs, _, h => by
    rw [WellFormedItems] at h
    have hfirst := (spelled_renderLines depth v h.1).spaced.between hbefore Blanks.nil
    have hrest := spelled_renderItemLines depth hbefore hafter (w :: vs) (List.cons_ne_nil _ _) h.2
    rw [renderItemLines] at hrest
    rw [renderItemLines, renderItemLines, joined_cons_cons]
    simpa only [List.append_assoc, List.cons_append, List.append_nil] using
      SpelledItems.cons hfirst hrest

theorem spelled_renderMemberLine (depth : Nat) {before after : List UInt8} (hbefore : Blanks before)
    (hafter : Blanks after) : ∀ m : Text × Json, WellFormedMember m →
    SpelledMember m (before ++ (renderMemberLine depth m ++ after))
  | (k, v), h => by
    rw [WellFormedMember] at h
    have hblank : Blanks [ascii ' '] := List.forall_mem_singleton.2 (by decide)
    have hvalue := (spelled_renderLines depth v h.2).spaced.between hblank hafter
    rw [renderMemberLine]
    simpa only [List.append_assoc, List.cons_append, List.nil_append] using
      SpelledMember.intro hbefore (Text.spelled_render h.1) Blanks.nil hvalue

theorem spelled_renderMemberLines (depth : Nat) {before after : List UInt8}
    (hbefore : Blanks before) (hafter : Blanks after) : ∀ ms : List (Text × Json), ms ≠ [] →
    WellFormedMembers ms → SpelledMembers ms
      (before ++ (joined (ascii ',' :: before) (renderMemberLines depth ms) ++ after))
  | [], hne, _ => absurd rfl hne
  | [m], _, h => by
    rw [WellFormedMembers] at h
    exact .last (spelled_renderMemberLine depth hbefore hafter m h.1)
  | m :: n :: ms, _, h => by
    rw [WellFormedMembers] at h
    have hfirst := spelled_renderMemberLine depth hbefore Blanks.nil m h.1
    have hrest := spelled_renderMemberLines depth hbefore hafter (n :: ms) (List.cons_ne_nil _ _) h.2
    rw [renderMemberLines] at hrest
    rw [renderMemberLines, renderMemberLines, joined_cons_cons]
    simpa only [List.append_assoc, List.cons_append, List.append_nil] using
      SpelledMembers.cons hfirst hrest

end

/-- What was written over lines is read. -/
theorem parse?_renderLines {j : Json} (depth : Nat) (h : j.WellFormed) :
    parse? (j.renderLines depth) = some j :=
  parse?_spaced (spelled_renderLines depth j h).spaced

/-! ## What is written is UTF-8 -/

/-- Whether octets spell a text. -/
def Legible (octets : List UInt8) : Prop := ∃ text : String, octets = Utf8.encode text

namespace Legible

theorem nil : Legible [] := ⟨"", rfl⟩

theorem append {front back : List UInt8} (hfront : Legible front) (hback : Legible back) :
    Legible (front ++ back) := by
  obtain ⟨s, rfl⟩ := hfront
  obtain ⟨t, rfl⟩ := hback
  refine ⟨s ++ t, ?_⟩
  simp only [Utf8.encode, String.toByteArray_append, ByteArray.data_append, Array.toList_append]

theorem of_ascii {octets : List UInt8} (h : ∀ b ∈ octets, b < 0x80) : Legible octets := by
  have hone : ∀ n : Fin 128, String.utf8EncodeChar (Char.ofUInt8 (UInt8.ofNat n))
      = [UInt8.ofNat n] := by decide
  refine ⟨String.ofList (octets.map Char.ofUInt8), ?_⟩
  rw [Utf8.encode_ofList]
  induction octets with
  | nil => rfl
  | cons b bs ih =>
    have hb : b.toNat < 128 := UInt8.lt_iff_toNat_lt.1 (h b List.mem_cons_self)
    have hchar : String.utf8EncodeChar (Char.ofUInt8 b) = [b] := by
      simpa using hone ⟨b.toNat, hb⟩
    rw [List.map_cons, List.flatMap_cons, hchar, ← ih fun d hd => h d (List.mem_cons_of_mem _ hd)]
    rfl

theorem of_blanks {octets : List UInt8} (h : Blanks octets) : Legible octets := by
  refine of_ascii fun b hb => ?_
  have hspace := h b hb
  simp only [isSpace, Bool.or_eq_true, decide_eq_true_eq] at hspace
  rcases hspace with ((rfl | rfl) | rfl) | rfl <;> decide

theorem cons {b : UInt8} {octets : List UInt8} (hb : b < 0x80) (h : Legible octets) :
    Legible (b :: octets) := (of_ascii (List.forall_mem_singleton.2 hb)).append h

theorem joined {separator : List UInt8} (hseparator : Legible separator) :
    ∀ {parts : List (List UInt8)}, (∀ part ∈ parts, Legible part) →
      Legible (Json.joined separator parts)
  | [], _ => nil
  | [_], h => h _ List.mem_cons_self
  | _ :: _ :: _, h =>
    ((h _ List.mem_cons_self).append hseparator).append
      (hseparator.joined fun part hpart => h part (List.mem_cons_of_mem _ hpart))

end Legible

theorem legible_newLine (depth : Nat) : Legible (newLine depth) :=
  .of_blanks (blanks_newLine depth)

theorem legible_bracketed (depth : Nat) {opening closing : Char} (hopening : ascii opening < 0x80)
    (hclosing : ascii closing < 0x80) {parts : List (List UInt8)}
    (h : ∀ part ∈ parts, Legible part) : Legible (bracketed depth opening closing parts) := by
  have hend : Legible [ascii closing] := .of_ascii (List.forall_mem_singleton.2 hclosing)
  rw [bracketed]
  split
  · exact hend.cons hopening
  · have hseparator : Legible (ascii ',' :: newLine (depth + 1)) :=
      (legible_newLine (depth + 1)).cons (by decide)
    exact ((((legible_newLine _).append (hseparator.joined h)).append (legible_newLine _)).append
      hend).cons hopening

/-! ### Strings -/

namespace Text

theorem legible_escape (u : UInt16) : Legible (escape u) := by
  have hdigit : ∀ n, hexDigit n < 0x80 := by
    intro n
    have h : ∀ m : Fin 16, ascii (Nat.digitChar m) < 0x80 := by decide
    exact h ⟨n % 16, Nat.mod_lt _ (by decide)⟩
  refine .of_ascii (List.forall_mem_cons.2 ⟨by decide, ?_⟩)
  split
  case h_8 =>
    refine List.forall_mem_cons.2 ⟨by decide, fun b hb => ?_⟩
    obtain ⟨n, -, rfl⟩ := List.mem_map.1 hb
    exact hdigit n
  all_goals exact List.forall_mem_singleton.2 (by decide)

/-- A character is one octet of ASCII, or all its octets stand for themselves in a string. -/
theorem utf8EncodeChar_cases (c : Char) :
    (∃ b, b < 0x80 ∧ String.utf8EncodeChar c = [b]) ∨
      ∀ b ∈ String.utf8EncodeChar c, isPlain b = true := by
  have hplain : ∀ n, 0x80 ≤ n → n < 0x100 → isPlain (UInt8.ofNat n) = true := by
    intro n hle hlt
    have h : ∀ m : Fin 128, isPlain (UInt8.ofNat (m + 128)) = true := by decide
    simpa [Nat.sub_add_cancel hle] using h ⟨n - 128, by omega⟩
  rw [String.utf8EncodeChar]
  split
  · rename_i hascii
    refine .inl ⟨_, ?_, rfl⟩
    rw [UInt8.lt_iff_toNat_lt, UInt8.toNat_ofNat']
    exact Nat.lt_of_le_of_lt (Nat.mod_le _ _) (Nat.lt_succ_of_le hascii)
  · right
    split
    · simp only [List.forall_mem_cons]
      exact ⟨hplain _ (by omega) (by omega), hplain _ (by omega) (by omega), nofun⟩
    · split
      · simp only [List.forall_mem_cons]
        exact ⟨hplain _ (by omega) (by omega), hplain _ (by omega) (by omega),
          hplain _ (by omega) (by omega), nofun⟩
      · simp only [List.forall_mem_cons]
        exact ⟨hplain _ (by omega) (by omega), hplain _ (by omega) (by omega),
          hplain _ (by omega) (by omega), hplain _ (by omega) (by omega), nofun⟩

/-- A character is written in UTF-8. -/
theorem legible_character (c : Char) : Legible ((String.utf8EncodeChar c).flatMap fun b =>
    renderPiece (if isPlain b then .octet b else .unit b.toUInt16)) := by
  rcases utf8EncodeChar_cases c with ⟨b, hascii, hc⟩ | hplain
  · rw [hc, List.flatMap_singleton]
    split
    · exact .of_ascii (List.forall_mem_singleton.2 hascii)
    · exact legible_escape _
  · have hself : (String.utf8EncodeChar c).flatMap (fun b =>
        renderPiece (if isPlain b then .octet b else .unit b.toUInt16))
        = (String.utf8EncodeChar c).flatMap fun b => [b] :=
      List.flatMap_congr fun b hb => by rw [if_pos (hplain b hb)]; rfl
    rw [hself, List.flatMap_singleton']
    exact ⟨String.ofList [c], by rw [Utf8.encode_ofList, List.flatMap_singleton]⟩

/-- A string is written in UTF-8, whatever it escapes. -/
theorem legible_render (s : String) : Legible (render (.ofString s)) := by
  have hchars : ∀ cs : List Char,
      Legible ((ofString (String.ofList cs)).flatMap renderPiece) := by
    intro cs
    rw [ofString, Utf8.encode_ofList, List.flatMap_map]
    induction cs with
    | nil => exact .nil
    | cons c cs ih =>
      rw [List.flatMap_cons, List.flatMap_append]
      exact (legible_character c).append ih
  have hinside := hchars s.toList
  rw [String.ofList_toList] at hinside
  exact (hinside.append (.of_ascii (List.forall_mem_singleton.2 (by decide)))).cons (by decide)

end Text

/-! ### Values -/

theorem legible_renderLines_ofString (s : String) (depth : Nat) :
    Legible ((ofString s).renderLines depth) := Text.legible_render s

theorem legible_renderLines_ofInt (n : Int) (depth : Nat) :
    Legible ((ofInt n).renderLines depth) := by
  have hdigit : ∀ m : Fin 10, ascii (Nat.digitChar m) < 0x80 := by decide
  show Legible (asciiText (Numeral.ofInt n).text)
  refine .of_ascii fun b hb => ?_
  obtain ⟨c, hc, rfl⟩ := List.mem_map.1 hb
  have hspelled := Numeral.spelled_text (Numeral.wellFormed_ofInt n)
  rcases Numeral.isSign_cases (Numeral.isSign_of_mem_spelled hspelled hc) with
    ⟨m, rfl⟩ | rfl | rfl | rfl | rfl | rfl
  · exact hdigit m
  all_goals decide

/-- An object is written in UTF-8 if the values of its fields are. -/
theorem legible_renderLines_ofFields {fs : List (String × Json)}
    (h : ∀ f ∈ fs, ∀ depth, Legible (f.2.renderLines depth)) (depth : Nat) :
    Legible ((ofFields fs).renderLines depth) := by
  have hmembers : ∀ part ∈ renderMemberLines (depth + 1)
      (fs.map fun f => (Text.ofString f.1, f.2)), Legible part := by
    induction fs with
    | nil => nofun
    | cons f fs ih =>
      rw [List.map_cons, renderMemberLines, List.forall_mem_cons]
      refine ⟨?_, ih fun g hg => h g (List.mem_cons_of_mem _ hg)⟩
      have hvalue := h f List.mem_cons_self (depth + 1)
      exact (Text.legible_render f.1).append ((hvalue.cons (by decide)).cons (by decide))
  rw [ofFields, renderLines]
  exact legible_bracketed depth (by decide) (by decide) hmembers

end TopicDirectory.Json
