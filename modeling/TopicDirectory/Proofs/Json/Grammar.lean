import TopicDirectory.Json.Printer
import TopicDirectory.Json.Token

/-!
# The grammar of JSON

Which octets are a text of a value (`Spaced`).  Blanks may stand around every value, every name and
every mark; a unit of a string is written by its letter, if it has one, or by four hexadecimal
digits of either case; the exponent of a number begins with either letter, and a plus sign may stand
in it.

`WellFormed` says which values have a text at all: a number has the digits that a number text needs,
and an octet of a string that stands for itself is one that may.  The shortest text of such a value
is one of its texts (`spelled_render`).
-/

namespace TopicDirectory.Json

/-! ## Numbers -/

namespace Numeral

/-- The digits of a number text: none is missing, and none comes before a first zero. -/
structure WellFormed (n : Numeral) : Prop where
  whole_ne_nil : n.whole ≠ []
  whole_digits : ∀ c ∈ n.whole, c.isDigit = true
  no_leading_zero : n.whole.head? = some '0' → n.whole = ['0']
  fraction : ∀ ds, n.fraction = some ds → ds ≠ [] ∧ ∀ c ∈ ds, c.isDigit = true
  exponent : ∀ sign ds, n.exponent = some (sign, ds) → ds ≠ [] ∧ ∀ c ∈ ds, c.isDigit = true

/-- What stands before the digits: the sign, if there is one. -/
def signText (n : Numeral) : List Char := if n.negative then ['-'] else []

/-- What stands after the digits before the point: the fraction, if there is one. -/
def fractionText (n : Numeral) : List Char :=
  match n.fraction with
  | none => []
  | some ds => '.' :: ds

/-- What stands at the end: the exponent, if there is one. -/
def exponentText (n : Numeral) : List Char :=
  match n.exponent with
  | none => []
  | some (negative, ds) => 'e' :: ((if negative then ['-'] else []) ++ ds)

theorem text_eq (n : Numeral) :
    n.text = n.signText ++ (n.whole ++ (n.fractionText ++ n.exponentText)) := by
  rw [← List.append_assoc, ← List.append_assoc]
  rfl

/-- The texts of an exponent. -/
inductive SpelledExponent : Option (Bool × List Char) → List Char → Prop
  | none : SpelledExponent none []
  | minus {mark : Char} (ds : List Char) (hmark : mark = 'e' ∨ mark = 'E') :
    SpelledExponent (some (true, ds)) (mark :: '-' :: ds)
  | plus {mark : Char} (ds : List Char) (hmark : mark = 'e' ∨ mark = 'E') :
    SpelledExponent (some (false, ds)) (mark :: '+' :: ds)
  | unsigned {mark : Char} (ds : List Char) (hmark : mark = 'e' ∨ mark = 'E') :
    SpelledExponent (some (false, ds)) (mark :: ds)

/-- The texts of a number. -/
inductive Spelled (n : Numeral) : List Char → Prop
  | intro {ending : List Char} (hn : n.WellFormed) (h : SpelledExponent n.exponent ending) :
    Spelled n (n.signText ++ (n.whole ++ (n.fractionText ++ ending)))

theorem Spelled.wellFormed {n : Numeral} {cs : List Char} : n.Spelled cs → n.WellFormed
  | .intro hn _ => hn

/-- The text that is written is one of the number's texts. -/
theorem spelled_text {n : Numeral} (h : n.WellFormed) : n.Spelled n.text := by
  have hending : SpelledExponent n.exponent n.exponentText := by
    unfold exponentText
    split
    · rename_i hnone
      rw [hnone]
      exact .none
    · rename_i negative ds hsome
      rw [hsome]
      cases negative
      · exact .unsigned ds (.inl rfl)
      · exact .minus ds (.inl rfl)
  rw [text_eq]
  exact .intro h hending

end Numeral

/-! ## Strings -/

/-- The texts of a piece. -/
inductive Piece.Spelled : Piece → List UInt8 → Prop
  | plain {b : UInt8} (h : isPlain b = true) : Spelled (.octet b) [b]
  | letter {b : UInt8} {u : UInt16} (h : shortEscape? b = some u) :
    Spelled (.unit u) [ascii '\\', b]
  | digits {b₃ b₂ b₁ b₀ : UInt8} {d₃ d₂ d₁ d₀ : Nat} (h₃ : hexValue? b₃ = some d₃)
    (h₂ : hexValue? b₂ = some d₂) (h₁ : hexValue? b₁ = some d₁) (h₀ : hexValue? b₀ = some d₀) :
    Spelled (.unit (UInt16.ofNat (((d₃ * 16 + d₂) * 16 + d₁) * 16 + d₀)))
      [ascii '\\', ascii 'u', b₃, b₂, b₁, b₀]

namespace Text

/-- A string whose plain octets may stand for themselves. -/
def WellFormed (t : Text) : Prop := ∀ b, .octet b ∈ t → isPlain b = true

/-- The texts of what stands between the quotes. -/
inductive SpelledInside : Text → List UInt8 → Prop
  | nil : SpelledInside [] []
  | cons {p : Piece} {t : Text} {front back : List UInt8} (hp : p.Spelled front)
    (ht : SpelledInside t back) : SpelledInside (p :: t) (front ++ back)

/-- The texts of a string. -/
inductive Spelled (t : Text) : List UInt8 → Prop
  | quoted {inside : List UInt8} (h : t.SpelledInside inside) :
    Spelled t (ascii '"' :: (inside ++ [ascii '"']))

theorem Spelled.wellFormed {t : Text} {octets : List UInt8} : t.Spelled octets → t.WellFormed
  | .quoted h => by
    intro b hb
    induction h with
    | nil => cases hb
    | cons hp _ ih =>
      rcases List.mem_cons.1 hb with rfl | hb
      · cases hp
        assumption
      · exact ih hb

theorem hexValue?_hexDigit (n : Nat) : hexValue? (hexDigit n) = some (n % 16) := by
  have h : ∀ m : Fin 16, hexValue? (ascii (Nat.digitChar m)) = some m.val := by decide
  exact h ⟨n % 16, Nat.mod_lt _ (by decide)⟩

theorem spelled_escape (u : UInt16) : (Piece.unit u).Spelled (escape u) := by
  have hu : ∀ v : UInt16, u.toNat = v.toNat → u = v := fun v h => UInt16.toNat_inj.1 h
  have hlt : u.toNat < 65536 := u.toNat_lt
  have hdigits : ((u.toNat / 0x1000 % 16 * 16 + u.toNat / 0x100 % 16) * 16
      + u.toNat / 0x10 % 16) * 16 + u.toNat % 16 = u.toNat := by omega
  unfold escape
  split
  · rename_i h; rw [hu 0x08 h]; exact .letter (by decide)
  · rename_i h; rw [hu 0x09 h]; exact .letter (by decide)
  · rename_i h; rw [hu 0x0a h]; exact .letter (by decide)
  · rename_i h; rw [hu 0x0c h]; exact .letter (by decide)
  · rename_i h; rw [hu 0x0d h]; exact .letter (by decide)
  · rename_i h; rw [hu 0x22 h]; exact .letter (by decide)
  · rename_i h; rw [hu 0x5c h]; exact .letter (by decide)
  · have hspelled := Piece.Spelled.digits (hexValue?_hexDigit (u.toNat / 0x1000))
      (hexValue?_hexDigit (u.toNat / 0x100)) (hexValue?_hexDigit (u.toNat / 0x10))
      (hexValue?_hexDigit u.toNat)
    rwa [hdigits, UInt16.ofNat_toNat] at hspelled

/-- The string that is written is one of its texts. -/
theorem spelled_render {t : Text} (h : t.WellFormed) : t.Spelled t.render := by
  refine .quoted ?_
  induction t with
  | nil => exact .nil
  | cons p ps ih =>
    refine .cons ?_ (ih fun b hb => h b (List.mem_cons_of_mem _ hb))
    cases p with
    | octet b => exact .plain (h b List.mem_cons_self)
    | unit u => exact spelled_escape u

/-- Whatever a string is, it can be written. -/
theorem wellFormed_ofString (s : String) : WellFormed (.ofString s) := by
  intro b hb
  obtain ⟨c, -, hc⟩ := List.mem_map.1 hb
  split at hc
  · rename_i hplain
    cases hc
    exact hplain
  · cases hc

end Text

/-! ## Values -/

mutual

/-- Whether a value can be written. -/
def WellFormed : Json → Prop
  | .null | .bool _ => True
  | .number n => n.WellFormed
  | .string t => Text.WellFormed t
  | .array items => WellFormedItems items
  | .object members => WellFormedMembers members

/-- Whether every item can be written. -/
def WellFormedItems : List Json → Prop
  | [] => True
  | v :: vs => WellFormed v ∧ WellFormedItems vs

/-- Whether the name and the value of a member can be written. -/
def WellFormedMember : Text × Json → Prop
  | (k, v) => Text.WellFormed k ∧ WellFormed v

/-- Whether every member can be written. -/
def WellFormedMembers : List (Text × Json) → Prop
  | [] => True
  | m :: ms => WellFormedMember m ∧ WellFormedMembers ms

end

/-- Octets that may stand between tokens. -/
def Blanks (octets : List UInt8) : Prop := ∀ b ∈ octets, isSpace b = true

mutual

/-- The texts of a value, without blanks around them. -/
inductive Spelled : Json → List UInt8 → Prop
  | null : Spelled .null (asciiText ['n', 'u', 'l', 'l'])
  | true : Spelled (.bool true) (asciiText ['t', 'r', 'u', 'e'])
  | false : Spelled (.bool false) (asciiText ['f', 'a', 'l', 's', 'e'])
  | number {n : Numeral} {cs : List Char} (h : n.Spelled cs) : Spelled (.number n) (asciiText cs)
  | string {t : Text} {octets : List UInt8} (h : t.Spelled octets) : Spelled (.string t) octets
  | emptyArray {blanks : List UInt8} (h : Blanks blanks) :
    Spelled (.array []) (ascii '[' :: (blanks ++ [ascii ']']))
  | array {items : List Json} {octets : List UInt8} (h : SpelledItems items octets) :
    Spelled (.array items) (ascii '[' :: (octets ++ [ascii ']']))
  | emptyObject {blanks : List UInt8} (h : Blanks blanks) :
    Spelled (.object []) (ascii '\x7b' :: (blanks ++ [ascii '\x7d']))
  | object {members : List (Text × Json)} {octets : List UInt8}
    (h : SpelledMembers members octets) :
    Spelled (.object members) (ascii '\x7b' :: (octets ++ [ascii '\x7d']))

/-- The texts of a value, with blanks around them. -/
inductive Spaced : Json → List UInt8 → Prop
  | intro {j : Json} {before octets after : List UInt8} (hbefore : Blanks before)
    (h : Spelled j octets) (hafter : Blanks after) : Spaced j (before ++ (octets ++ after))

/-- The texts of one item or more, with commas between them. -/
inductive SpelledItems : List Json → List UInt8 → Prop
  | last {j : Json} {octets : List UInt8} (h : Spaced j octets) : SpelledItems [j] octets
  | cons {j : Json} {js : List Json} {front back : List UInt8} (h : Spaced j front)
    (hs : SpelledItems js back) : SpelledItems (j :: js) (front ++ ascii ',' :: back)

/-- The texts of a member: the name, a colon and the value. -/
inductive SpelledMember : Text × Json → List UInt8 → Prop
  | intro {k : Text} {j : Json} {before name after back : List UInt8} (hbefore : Blanks before)
    (hk : k.Spelled name) (hafter : Blanks after) (h : Spaced j back) :
    SpelledMember (k, j) (before ++ (name ++ (after ++ ascii ':' :: back)))

/-- The texts of one member or more, with commas between them. -/
inductive SpelledMembers : List (Text × Json) → List UInt8 → Prop
  | last {m : Text × Json} {octets : List UInt8} (h : SpelledMember m octets) :
    SpelledMembers [m] octets
  | cons {m : Text × Json} {ms : List (Text × Json)} {front back : List UInt8}
    (h : SpelledMember m front) (hs : SpelledMembers ms back) :
    SpelledMembers (m :: ms) (front ++ ascii ',' :: back)

end

theorem Blanks.nil : Blanks [] := fun _ hb => nomatch hb

/-- Blanks around a value may be left out. -/
theorem Spelled.spaced {j : Json} {octets : List UInt8} (h : Spelled j octets) :
    Spaced j octets := by
  have hspaced := Spaced.intro Blanks.nil h Blanks.nil
  rwa [List.nil_append, List.append_nil] at hspaced

theorem SpelledMember.compact {k : Text} {j : Json} {name back : List UInt8} (hk : k.Spelled name)
    (h : Spelled j back) : SpelledMember (k, j) (name ++ ascii ':' :: back) :=
  .intro Blanks.nil hk Blanks.nil h.spaced

mutual

/-- A value that has a text can be written. -/
theorem Spelled.wellFormed {j : Json} {octets : List UInt8} : Spelled j octets → j.WellFormed
  | .null | .true | .false => by rw [WellFormed]; trivial
  | .number h => by
    rw [WellFormed]
    exact h.wellFormed
  | .string h => by
    rw [WellFormed]
    exact h.wellFormed
  | .emptyArray _ => by rw [WellFormed, WellFormedItems]; trivial
  | .array h => by
    rw [WellFormed]
    exact h.wellFormed
  | .emptyObject _ => by rw [WellFormed, WellFormedMembers]; trivial
  | .object h => by
    rw [WellFormed]
    exact h.wellFormed

theorem Spaced.wellFormed {j : Json} {octets : List UInt8} : Spaced j octets → j.WellFormed
  | .intro _ h _ => h.wellFormed

theorem SpelledItems.wellFormed {js : List Json} {octets : List UInt8} :
    SpelledItems js octets → WellFormedItems js
  | .last h => by
    rw [WellFormedItems, WellFormedItems]
    exact ⟨h.wellFormed, trivial⟩
  | .cons h hs => by
    rw [WellFormedItems]
    exact ⟨h.wellFormed, hs.wellFormed⟩

theorem SpelledMember.wellFormed : ∀ {m : Text × Json} {octets : List UInt8},
    SpelledMember m octets → WellFormedMember m
  | (_, _), _, .intro _ hk _ h => by
    rw [WellFormedMember]
    exact ⟨hk.wellFormed, h.wellFormed⟩

theorem SpelledMembers.wellFormed {ms : List (Text × Json)} {octets : List UInt8} :
    SpelledMembers ms octets → WellFormedMembers ms
  | .last h => by
    rw [WellFormedMembers, WellFormedMembers]
    exact ⟨h.wellFormed, trivial⟩
  | .cons h hs => by
    rw [WellFormedMembers]
    exact ⟨h.wellFormed, hs.wellFormed⟩

end

theorem joined_cons_cons (separator item next : List UInt8) (items : List (List UInt8)) :
    joined separator (item :: next :: items)
      = item ++ (separator ++ joined separator (next :: items)) := by
  rw [← List.append_assoc]
  rfl

mutual

/-- The shortest text of a value is one of its texts. -/
theorem spelled_render : ∀ j : Json, j.WellFormed → Spelled j j.render
  | .null, _ => .null
  | .bool true, _ => .true
  | .bool false, _ => .false
  | .number n, h => by
    rw [WellFormed] at h
    exact .number (Numeral.spelled_text h)
  | .string t, h => by
    rw [WellFormed] at h
    exact .string (Text.spelled_render h)
  | .array [], _ => .emptyArray Blanks.nil
  | .array (v :: vs), h => by
    rw [WellFormed] at h
    exact .array (spelled_renderItems (v :: vs) (List.cons_ne_nil _ _) h)
  | .object [], _ => .emptyObject Blanks.nil
  | .object (m :: ms), h => by
    rw [WellFormed] at h
    exact .object (spelled_renderMembers (m :: ms) (List.cons_ne_nil _ _) h)

theorem spelled_renderItems : ∀ vs : List Json, vs ≠ [] → WellFormedItems vs →
    SpelledItems vs (joined [ascii ','] (renderItems vs))
  | [], hne, _ => absurd rfl hne
  | [v], _, h => by
    rw [WellFormedItems] at h
    exact .last (spelled_render v h.1).spaced
  | v :: w :: vs, _, h => by
    rw [WellFormedItems] at h
    rw [renderItems, renderItems, joined_cons_cons]
    exact .cons (spelled_render v h.1).spaced
      (spelled_renderItems (w :: vs) (List.cons_ne_nil _ _) h.2)

theorem spelled_renderMember : ∀ m : Text × Json, WellFormedMember m →
    SpelledMember m (renderMember m)
  | (k, v), h => by
    rw [WellFormedMember] at h
    exact .compact (Text.spelled_render h.1) (spelled_render v h.2)

theorem spelled_renderMembers : ∀ ms : List (Text × Json), ms ≠ [] → WellFormedMembers ms →
    SpelledMembers ms (joined [ascii ','] (renderMembers ms))
  | [], hne, _ => absurd rfl hne
  | [m], _, h => by
    rw [WellFormedMembers] at h
    exact .last (spelled_renderMember m h.1)
  | m :: n :: ms, _, h => by
    rw [WellFormedMembers] at h
    rw [renderMembers, renderMembers, joined_cons_cons]
    exact .cons (spelled_renderMember m h.1)
      (spelled_renderMembers (n :: ms) (List.cons_ne_nil _ _) h.2)

end

end TopicDirectory.Json
