import Mathlib.Data.List.Forall2
import TopicDirectory.Proofs.Json.Grammar

/-!
# What the scanner finds in the text of a value

The scanner finds the tokens of a value in every text of the value (`tokens?_spaced`), but for the
numbers, of which it keeps the text that it has read (`Token.Alike`).

A bare token has no end of its own, so a scanner that has read one is still inside it.  `Reads` is
therefore said of the scanner after it has been closed; the octet that comes next closes it, if it
is one that delimits (`Reads.append`).
-/

namespace TopicDirectory.Json

/-! ## The tokens of a value -/

mutual

/-- The tokens of a value. -/
def tokens : Json → List Token
  | .null => [.bare (asciiText ['n', 'u', 'l', 'l'])]
  | .bool true => [.bare (asciiText ['t', 'r', 'u', 'e'])]
  | .bool false => [.bare (asciiText ['f', 'a', 'l', 's', 'e'])]
  | .number n => [.bare (asciiText n.text)]
  | .string t => [.string t]
  | .array items => .openArray :: (itemTokens items ++ [.closeArray])
  | .object members => .openObject :: (memberTokens members ++ [.closeObject])

/-- The tokens of items, with commas between them. -/
def itemTokens : List Json → List Token
  | [] => []
  | v :: vs => tokens v ++ moreItemTokens vs

/-- The tokens of items that come after another. -/
def moreItemTokens : List Json → List Token
  | [] => []
  | v :: vs => .comma :: (tokens v ++ moreItemTokens vs)

/-- The tokens of a member. -/
def memberToken : Text × Json → List Token
  | (k, v) => .string k :: .colon :: tokens v

/-- The tokens of members, with commas between them. -/
def memberTokens : List (Text × Json) → List Token
  | [] => []
  | m :: ms => memberToken m ++ moreMemberTokens ms

/-- The tokens of members that come after another. -/
def moreMemberTokens : List (Text × Json) → List Token
  | [] => []
  | m :: ms => .comma :: (memberToken m ++ moreMemberTokens ms)

end

/-! ## Closing a scanner -/

namespace Scan

/-- The scanner with the bare token that it is in, if any, brought to its end. -/
def close (s : Scan) : Scan :=
  match s.mode with
  | .bare seen => ⟨.bare seen.reverse :: s.tokens, .between⟩
  | _ => s

theorem step_close {b : UInt8} (s : Scan) (h : delimits b = true) : s.close.step b = s.step b := by
  obtain ⟨ts, mode⟩ := s
  cases mode with
  | bare seen => simp [close, step, h]
  | _ => rfl

theorem finish?_close (s : Scan) : s.close.finish? = s.finish? := by
  obtain ⟨ts, mode⟩ := s
  cases mode <;> rfl

@[simp] theorem run_nil (s : Scan) : s.run [] = some s := rfl

theorem run_cons (s : Scan) (b : UInt8) (bs : List UInt8) :
    s.run (b :: bs) = (s.step b).bind fun t => t.run bs := by
  simp [run]

theorem run_close {b : UInt8} (s : Scan) (h : delimits b = true) (bs : List UInt8) :
    s.close.run (b :: bs) = s.run (b :: bs) := by
  rw [run_cons, run_cons, step_close s h]

end Scan

theorem ne_of_mark? {b : UInt8} {t : Token} (h : mark? b = some t) :
    isSpace b = false ∧ b ≠ ascii '"' := by
  unfold mark? at h
  split at h
  · subst b; decide
  split at h
  · subst b; decide
  split at h
  · subst b; decide
  split at h
  · subst b; decide
  split at h
  · subst b; decide
  split at h
  · subst b; decide
  cases h

/-- The scanner, wherever it stands between tokens, finds these tokens in these octets. -/
def Reads (octets : List UInt8) (ts : List Token) : Prop :=
  ∀ before, ∃ s, Scan.run ⟨before, .between⟩ octets = some s ∧
    s.close = ⟨ts.reverse ++ before, .between⟩

theorem Reads.append {b : UInt8} {front back : List UInt8} {ts us : List Token}
    (hfront : Reads front ts) (hb : Scan.delimits b = true) (hback : Reads (b :: back) us) :
    Reads (front ++ b :: back) (ts ++ us) := by
  intro before
  obtain ⟨s, hrun, hclose⟩ := hfront before
  obtain ⟨t, hrun', hclose'⟩ := hback (ts.reverse ++ before)
  refine ⟨t, ?_, by simpa using hclose'⟩
  rw [Scan.run_append, hrun, Option.bind_some, ← Scan.run_close s hb, hclose, hrun']

theorem Reads.mark {b : UInt8} {t : Token} {back : List UInt8} {us : List Token}
    (hb : mark? b = some t) (hback : Reads back us) : Reads (b :: back) (t :: us) := by
  intro before
  obtain ⟨s, hrun, hclose⟩ := hback (t :: before)
  refine ⟨s, ?_, by simpa using hclose⟩
  obtain ⟨hspace, hquote⟩ := ne_of_mark? hb
  rw [Scan.run_cons, ← hrun]
  simp [Scan.step, Scan.begin, hspace, hquote, hb]

theorem Reads.nil : Reads [] [] := fun _ => ⟨_, rfl, rfl⟩

/-- A closing mark ends a text, whatever stands before it. -/
theorem Reads.close {b : UInt8} {t : Token} (hb : mark? b = some t) : Reads [b] [t] :=
  Reads.mark hb .nil

/-- A run of octets without blanks and marks is one bare token. -/
theorem Reads.bare {octets : List UInt8} (hne : octets ≠ [])
    (h : ∀ b ∈ octets, Scan.delimits b = false) : Reads octets [.bare octets] := by
  have hseen : ∀ (bs : List UInt8) (before : List Token) (seen : List UInt8),
      (∀ b ∈ bs, Scan.delimits b = false) →
      Scan.run ⟨before, .bare seen⟩ bs = some ⟨before, .bare (bs.reverse ++ seen)⟩ := by
    intro bs
    induction bs with
    | nil => intro before seen _; rfl
    | cons b bs ih =>
      intro before seen hbs
      rw [Scan.run_cons]
      simp only [Scan.step, hbs b List.mem_cons_self, Bool.false_eq_true, if_false,
        Option.bind_some]
      rw [ih before (b :: seen) fun c hc => hbs c (List.mem_cons_of_mem _ hc)]
      simp
  intro before
  cases octets with
  | nil => exact absurd rfl hne
  | cons b bs =>
    have hb := h b List.mem_cons_self
    simp only [Scan.delimits, Bool.or_eq_false_iff, decide_eq_false_iff_not] at hb
    obtain ⟨⟨hspace, hquote⟩, hmark⟩ := hb
    refine ⟨⟨before, .bare (bs.reverse ++ [b])⟩, ?_, by simp [Scan.close]⟩
    rw [Scan.run_cons]
    have hbegin : Scan.begin before b = ⟨before, .bare [b]⟩ := by
      have hnone : mark? b = none := by simpa using hmark
      simp [Scan.begin, hspace, hquote, hnone]
    simp only [Scan.step, hbegin, Option.bind_some]
    exact hseen bs before [b] fun c hc => h c (List.mem_cons_of_mem _ hc)

/-! ## Blanks -/

theorem delimits_of_isSpace {b : UInt8} (h : isSpace b = true) : Scan.delimits b = true := by
  simp [Scan.delimits, h]

theorem Reads.blank {b : UInt8} {back : List UInt8} {ts : List Token} (hb : isSpace b = true)
    (hback : Reads back ts) : Reads (b :: back) ts := by
  intro before
  obtain ⟨s, hrun, hclose⟩ := hback before
  refine ⟨s, ?_, hclose⟩
  rw [Scan.run_cons, ← hrun]
  simp [Scan.step, Scan.begin, hb]

/-- Blanks before a token are passed over. -/
theorem Reads.blanks {front back : List UInt8} {ts : List Token} (hfront : Blanks front)
    (hback : Reads back ts) : Reads (front ++ back) ts := by
  induction front with
  | nil => exact hback
  | cons b bs ih =>
    exact (ih fun c hc => hfront c (List.mem_cons_of_mem _ hc)).blank (hfront b List.mem_cons_self)

/-! ## Strings -/

theorem run_backslash (before : List Token) (seen : List Piece) (bs : List UInt8) :
    Scan.run ⟨before, .quoted seen⟩ (ascii '\\' :: bs) = Scan.run ⟨before, .escaped seen⟩ bs := by
  have hne : ascii '\\' ≠ ascii '"' := by decide
  rw [Scan.run_cons]
  simp only [Scan.step, hne, if_false, if_true, Option.bind_some]

/-- No unit has the letter that opens four digits. -/
theorem ne_of_shortEscape? {b : UInt8} {u : UInt16} (h : shortEscape? b = some u) :
    b ≠ ascii 'u' := by
  rintro rfl
  have hnone : shortEscape? (ascii 'u') = none := by decide
  rw [hnone] at h
  cases h

/-- However a piece is spelled, it is read. -/
theorem run_piece (before : List Token) (seen : List Piece) {p : Piece} {octets : List UInt8}
    (h : p.Spelled octets) :
    Scan.run ⟨before, .quoted seen⟩ octets = some ⟨before, .quoted (p :: seen)⟩ := by
  cases h with
  | plain hb =>
    simp only [isPlain, Bool.and_eq_true, decide_eq_true_eq] at hb
    obtain ⟨⟨hlow, hquote⟩, hslash⟩ := hb
    rw [Scan.run_cons]
    simp only [Scan.step, hquote, hslash, UInt8.not_lt.2 hlow, if_false, Option.bind_some,
      Scan.run_nil]
  | letter hu =>
    rw [run_backslash, Scan.run_cons]
    simp only [Scan.step, ne_of_shortEscape? hu, if_false, hu, Option.map_some, Option.bind_some,
      Scan.run_nil]
  | digits h₃ h₂ h₁ h₀ =>
    rw [run_backslash]
    simp only [Scan.run_cons, Scan.run_nil, Scan.step, if_true, h₃, h₂, h₁, h₀, Option.map_some,
      Option.bind_some, Nat.zero_mul, Nat.zero_add]

theorem run_pieces (before : List Token) (seen : List Piece) {t : Text} {octets : List UInt8}
    (h : t.SpelledInside octets) :
    Scan.run ⟨before, .quoted seen⟩ octets = some ⟨before, .quoted (t.reverse ++ seen)⟩ := by
  induction h generalizing seen with
  | nil => rfl
  | cons hp ht ih =>
    rw [Scan.run_append, run_piece before seen hp, Option.bind_some, ih]
    simp

theorem Reads.string {t : Text} {octets : List UInt8} (h : t.Spelled octets) :
    Reads octets [.string t] := by
  intro before
  refine ⟨⟨.string t :: before, .between⟩, ?_, rfl⟩
  have hopen : Scan.step ⟨before, .between⟩ (ascii '"') = some ⟨before, .quoted []⟩ := by
    have hspace : isSpace (ascii '"') = false := by decide
    simp [Scan.step, Scan.begin, hspace]
  obtain ⟨h⟩ := h
  rw [Scan.run_cons, hopen, Option.bind_some, Scan.run_append, run_pieces before [] h,
    Option.bind_some, Scan.run_cons]
  simp [Scan.step]

/-! ## Numbers -/

theorem exists_digitChar {c : Char} (h : c.isDigit = true) : ∃ m : Fin 10, c = Nat.digitChar m := by
  have hlow : 48 ≤ c.toNat := by simp [Char.isDigit, UInt32.le_iff_toNat_le] at h; exact h.1
  have hhigh : c.toNat ≤ 57 := by simp [Char.isDigit, UInt32.le_iff_toNat_le] at h; exact h.2
  refine ⟨⟨c.toNat - 48, by omega⟩, ?_⟩
  have hall : ∀ m : Fin 10, Nat.digitChar m = Char.ofNat (48 + m) := by decide
  rw [hall]
  simp only
  rw [show 48 + (c.toNat - 48) = c.toNat by omega, Char.ofNat_toNat]

namespace Numeral

/-- The characters of which number texts are made. -/
def isSign (c : Char) : Bool :=
  c.isDigit || c = '-' || c = '+' || c = '.' || c = 'e' || c = 'E'

variable {n : Numeral} {c : Char} {cs : List Char}

theorem isSign_of_isDigit (h : c.isDigit = true) : isSign c = true := by
  simp [isSign, h]

theorem isSign_of_mem_signText (h : c ∈ n.signText) : isSign c = true := by
  unfold signText at h
  split at h
  · rw [List.mem_singleton.1 h]
    decide
  · cases h

theorem isSign_of_mem_fractionText (hn : n.WellFormed) (h : c ∈ n.fractionText) :
    isSign c = true := by
  unfold fractionText at h
  split at h
  · cases h
  · rename_i ds hds
    rcases List.mem_cons.1 h with rfl | h
    · decide
    · exact isSign_of_isDigit ((hn.fraction ds hds).2 c h)

theorem isSign_of_mem_exponent (hn : n.WellFormed) (hspelled : SpelledExponent n.exponent cs)
    (h : c ∈ cs) : isSign c = true := by
  have hmark : ∀ {mark : Char}, mark = 'e' ∨ mark = 'E' → isSign mark = true := by
    rintro mark (rfl | rfl) <;> decide
  have hdigit : ∀ {sign ds}, n.exponent = some (sign, ds) → c ∈ ds → isSign c = true :=
    fun hexponent hc => isSign_of_isDigit ((hn.exponent _ _ hexponent).2 c hc)
  generalize hexponent : n.exponent = exponent at hspelled
  cases hspelled with
  | none => cases h
  | minus ds hm =>
    rcases List.mem_cons.1 h with rfl | h
    · exact hmark hm
    · rcases List.mem_cons.1 h with rfl | h
      · decide
      · exact hdigit hexponent h
  | plus ds hm =>
    rcases List.mem_cons.1 h with rfl | h
    · exact hmark hm
    · rcases List.mem_cons.1 h with rfl | h
      · decide
      · exact hdigit hexponent h
  | unsigned ds hm =>
    rcases List.mem_cons.1 h with rfl | h
    · exact hmark hm
    · exact hdigit hexponent h

theorem isSign_of_mem_spelled (hspelled : n.Spelled cs) (h : c ∈ cs) : isSign c = true := by
  obtain ⟨hn, hending⟩ := hspelled
  rcases List.mem_append.1 h with h | h
  · exact isSign_of_mem_signText h
  · rcases List.mem_append.1 h with h | h
    · exact isSign_of_isDigit (hn.whole_digits c h)
    · rcases List.mem_append.1 h with h | h
      · exact isSign_of_mem_fractionText hn h
      · exact isSign_of_mem_exponent hn hending h

theorem isSign_cases (h : isSign c = true) :
    (∃ m : Fin 10, c = Nat.digitChar m) ∨ c = '-' ∨ c = '+' ∨ c = '.' ∨ c = 'e' ∨ c = 'E' := by
  simp only [isSign, Bool.or_eq_true, decide_eq_true_eq, or_assoc] at h
  exact h.imp_left exists_digitChar

theorem delimits_of_isSign (h : isSign c = true) : Scan.delimits (ascii c) = false := by
  have hdigits : ∀ m : Fin 10, Scan.delimits (ascii (Nat.digitChar m)) = false := by decide
  rcases isSign_cases h with ⟨m, rfl⟩ | rfl | rfl | rfl | rfl | rfl
  · exact hdigits m
  all_goals decide

theorem ofUInt8_of_isSign (h : isSign c = true) : Char.ofUInt8 (ascii c) = c := by
  have hdigits : ∀ m : Fin 10, Char.ofUInt8 (ascii (Nat.digitChar m)) = Nat.digitChar m := by
    decide
  rcases isSign_cases h with ⟨m, rfl⟩ | rfl | rfl | rfl | rfl | rfl
  · exact hdigits m
  all_goals decide

theorem ne_nil_of_spelled (h : n.Spelled cs) : cs ≠ [] := by
  obtain ⟨hn, hending⟩ := h
  simp [hn.whole_ne_nil]

end Numeral

theorem Reads.number {n : Numeral} {cs : List Char} (h : n.Spelled cs) :
    Reads (asciiText cs) [.bare (asciiText cs)] := by
  refine Reads.bare (by simp [asciiText, Numeral.ne_nil_of_spelled h]) fun b hb => ?_
  obtain ⟨c, hc, rfl⟩ := List.mem_map.1 hb
  exact Numeral.delimits_of_isSign (Numeral.isSign_of_mem_spelled h hc)

/-! ## Values -/

/-- Tokens that mean the same: the same number may be spelled in another way. -/
inductive Token.Alike : Token → Token → Prop
  | refl (t : Token) : Alike t t
  | number {n : Numeral} {cs : List Char} (h : n.Spelled cs) :
    Alike (.bare (asciiText cs)) (.bare (asciiText n.text))

/-- The scanner finds tokens that mean the same as these. -/
def Finds (octets : List UInt8) (ts : List Token) : Prop :=
  ∃ us, Reads octets us ∧ List.Forall₂ Token.Alike us ts

namespace Finds

variable {front back : List UInt8} {ts us : List Token}

theorem of_token {octets : List UInt8} {t : Token} (h : Reads octets [t]) : Finds octets [t] :=
  ⟨[t], h, .cons (.refl t) .nil⟩

theorem append {b : UInt8} (hfront : Finds front ts) (hb : Scan.delimits b = true)
    (hback : Finds (b :: back) us) : Finds (front ++ b :: back) (ts ++ us) := by
  obtain ⟨ts', hts, hlike⟩ := hfront
  obtain ⟨us', hus, hlike'⟩ := hback
  exact ⟨ts' ++ us', hts.append hb hus, List.rel_append hlike hlike'⟩

theorem mark {b : UInt8} {t : Token} (hb : mark? b = some t) (hback : Finds back us) :
    Finds (b :: back) (t :: us) := by
  obtain ⟨us', hus, hlike⟩ := hback
  exact ⟨t :: us', hus.mark hb, .cons (.refl t) hlike⟩

theorem blanks (hfront : Blanks front) (hback : Finds back ts) : Finds (front ++ back) ts := by
  obtain ⟨us, hus, hlike⟩ := hback
  exact ⟨us, hus.blanks hfront, hlike⟩

/-- Blanks after a token close it. -/
theorem trailing (hfront : Finds front ts) (hback : Blanks back) : Finds (front ++ back) ts := by
  cases back with
  | nil => rwa [List.append_nil]
  | cons b bs =>
    have hnone : Finds (b :: bs) [] := by
      have hblanks := blanks hback ⟨[], Reads.nil, .nil⟩
      rwa [List.append_nil] at hblanks
    have happend := hfront.append (delimits_of_isSpace (hback b List.mem_cons_self)) hnone
    rwa [List.append_nil] at happend

end Finds

theorem SpelledItems.exists_cons {js : List Json} {octets : List UInt8}
    (h : SpelledItems js octets) : ∃ k ks, js = k :: ks := by
  cases h <;> exact ⟨_, _, rfl⟩

theorem SpelledMembers.exists_cons {ms : List (Text × Json)} {octets : List UInt8}
    (h : SpelledMembers ms octets) : ∃ k ks, ms = k :: ks := by
  cases h <;> exact ⟨_, _, rfl⟩

/-- Blanks up to a mark. -/
theorem Finds.between {b : UInt8} {t : Token} {octets : List UInt8} (h : Blanks octets)
    (hb : mark? b = some t) : Finds (octets ++ [b]) [t] :=
  .blanks h (.of_token (Reads.close hb))

mutual

/-- The scanner finds in every text of a value the tokens of the value. -/
theorem Spelled.finds {j : Json} {octets : List UInt8} : Spelled j octets → Finds octets j.tokens
  | .null => .of_token (Reads.bare (by decide) (by decide +kernel))
  | .true => .of_token (Reads.bare (by decide) (by decide +kernel))
  | .false => .of_token (Reads.bare (by decide) (by decide +kernel))
  | .number h => ⟨_, Reads.number h, .cons (.number h) .nil⟩
  | .string h => .of_token (Reads.string h)
  | .emptyArray h => .mark rfl (.between h rfl)
  | .array h => .mark rfl (.append h.finds (by decide) (.of_token (Reads.close rfl)))
  | .emptyObject h => .mark rfl (.between h rfl)
  | .object h => .mark rfl (.append h.finds (by decide) (.of_token (Reads.close rfl)))

theorem Spaced.finds {j : Json} {octets : List UInt8} : Spaced j octets → Finds octets j.tokens
  | .intro hbefore h hafter => .blanks hbefore (.trailing h.finds hafter)

theorem SpelledItems.finds {js : List Json} {octets : List UInt8} :
    SpelledItems js octets → Finds octets (itemTokens js)
  | .last h => by
    rw [itemTokens, moreItemTokens, List.append_nil]
    exact h.finds
  | .cons h hs => by
    obtain ⟨k, ks, rfl⟩ := hs.exists_cons
    exact .append h.finds (by decide) (.mark rfl hs.finds)

theorem SpelledMember.finds : ∀ {m : Text × Json} {octets : List UInt8},
    SpelledMember m octets → Finds octets (memberToken m)
  | (k, j), _, .intro hbefore hk hafter h =>
    .blanks hbefore <| by
      rw [← List.append_assoc, memberToken]
      exact .append (b := ascii ':') (.trailing (.of_token (Reads.string hk)) hafter) (by decide)
        (.mark (t := .colon) rfl h.finds)

theorem SpelledMembers.finds {ms : List (Text × Json)} {octets : List UInt8} :
    SpelledMembers ms octets → Finds octets (memberTokens ms)
  | .last h => by
    rw [memberTokens, moreMemberTokens, List.append_nil]
    exact h.finds
  | .cons h hs => by
    obtain ⟨k, ks, rfl⟩ := hs.exists_cons
    exact .append h.finds (by decide) (.mark rfl hs.finds)

end

/-- The tokens of a text of a value. -/
theorem tokens?_spaced {j : Json} {octets : List UInt8} (h : Spaced j octets) :
    ∃ ts, tokens? octets = some ts ∧ List.Forall₂ Token.Alike ts j.tokens := by
  obtain ⟨ts, hreads, hlike⟩ := h.finds
  obtain ⟨s, hrun, hclose⟩ := hreads []
  refine ⟨ts, ?_, hlike⟩
  rw [tokens?, Scan.start, hrun, Option.bind_some, ← Scan.finish?_close, hclose]
  simp [Scan.finish?]

end TopicDirectory.Json
