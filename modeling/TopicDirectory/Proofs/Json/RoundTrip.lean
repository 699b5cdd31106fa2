import TopicDirectory.Json.Reader
import TopicDirectory.Proofs.Json.Scanning

/-!
# Every text of a value is read

However a value is spelled, it is read (`parse?_spaced`): the tokens that the scanner finds make up
the value (`ofTokens?_tokens`), whatever containers are open around it.  So what is written is read
back (`parse?_render`).
-/

namespace TopicDirectory.Json

/-! ## Numbers -/

namespace Numeral

variable {n : Numeral} {ending : List Char}

theorem takeWhile_ending {exponent : Option (Bool × List Char)}
    (h : SpelledExponent exponent ending) : ending.takeWhile Char.isDigit = [] := by
  cases h with
  | none => rfl
  | minus ds hmark => rcases hmark with rfl | rfl <;> rfl
  | plus ds hmark => rcases hmark with rfl | rfl <;> rfl
  | unsigned ds hmark => rcases hmark with rfl | rfl <;> rfl

theorem ne_point_of_ending {exponent : Option (Bool × List Char)} {c : Char} {cs : List Char}
    (h : SpelledExponent exponent (c :: cs)) : c ≠ '.' := by
  have hmark : ∀ {mark : Char}, mark = 'e' ∨ mark = 'E' → mark ≠ '.' := by
    rintro mark (rfl | rfl) <;> decide
  cases h with
  | minus ds hm => exact hmark hm
  | plus ds hm => exact hmark hm
  | unsigned ds hm => exact hmark hm

theorem takeWhile_fractionText (h : SpelledExponent n.exponent ending) :
    (n.fractionText ++ ending).takeWhile Char.isDigit = [] := by
  unfold fractionText
  split
  · exact takeWhile_ending h
  · rfl

theorem dropWhile_eq_self {cs : List Char} (h : cs.takeWhile Char.isDigit = []) :
    cs.dropWhile Char.isDigit = cs := by
  conv => rhs; rw [← List.takeWhile_append_dropWhile (p := Char.isDigit) (l := cs), h]
  rfl

theorem exponent?_ending (hn : n.WellFormed) (h : SpelledExponent n.exponent ending) :
    exponent? ending = some n.exponent := by
  generalize hexponent : n.exponent = exponent at h
  have hdigits : ∀ {sign ds}, exponent = some (sign, ds) →
      ds ≠ [] ∧ ds.all Char.isDigit = true := by
    rintro sign ds rfl
    obtain ⟨hne, hall⟩ := hn.exponent sign ds hexponent
    exact ⟨hne, List.all_eq_true.2 hall⟩
  have hmark : ∀ {mark : Char}, mark = 'e' ∨ mark = 'E' → ¬ (mark ≠ 'e' ∧ mark ≠ 'E') := by
    rintro mark (rfl | rfl) <;> decide
  cases h with
  | none => rfl
  | minus ds hm =>
    simp only [exponent?, if_neg (hmark hm)]
    exact if_pos (hdigits rfl)
  | plus ds hm =>
    simp only [exponent?, if_neg (hmark hm)]
    exact if_pos (hdigits rfl)
  | unsigned ds hm =>
    obtain ⟨hne, hall⟩ := hdigits rfl
    cases ds with
    | nil => exact absurd rfl hne
    | cons d ds =>
      have hd : d.isDigit = true := List.all_eq_true.1 hall d List.mem_cons_self
      have hminus : d ≠ '-' := by rintro rfl; cases hd
      have hplus : d ≠ '+' := by rintro rfl; cases hd
      simp only [exponent?, if_neg (hmark hm)]
      simp [hminus, hplus, hall]

theorem fraction?_fractionText (hn : n.WellFormed) (h : SpelledExponent n.exponent ending) :
    fraction? (n.fractionText ++ ending) = some (n.fraction, ending) := by
  unfold fractionText
  split
  · rename_i hnone
    rw [hnone, List.nil_append]
    cases ending with
    | nil => rfl
    | cons c cs => simp [fraction?, ne_point_of_ending h]
  · rename_i ds hsome
    obtain ⟨hne, hdigits⟩ := hn.fraction ds hsome
    rw [hsome, List.cons_append]
    simp [fraction?, List.takeWhile_append_of_pos hdigits, List.dropWhile_append_of_pos hdigits,
      takeWhile_ending h, dropWhile_eq_self (takeWhile_ending h), hne]

theorem unsigned?_spelled (hn : n.WellFormed) (h : SpelledExponent n.exponent ending) :
    unsigned? n.negative (n.whole ++ (n.fractionText ++ ending)) = some n := by
  have hwhole : (n.whole ++ (n.fractionText ++ ending)).takeWhile Char.isDigit = n.whole := by
    rw [List.takeWhile_append_of_pos hn.whole_digits, takeWhile_fractionText h, List.append_nil]
  have hrest : (n.whole ++ (n.fractionText ++ ending)).dropWhile Char.isDigit
      = n.fractionText ++ ending := by
    rw [List.dropWhile_append_of_pos hn.whole_digits,
      dropWhile_eq_self (takeWhile_fractionText h)]
  have hzero : ¬ (n.whole = [] ∨ (n.whole.head? = some '0' ∧ n.whole ≠ ['0'])) := by
    rintro (hnil | ⟨hhead, hne⟩)
    · exact hn.whole_ne_nil hnil
    · exact hne (hn.no_leading_zero hhead)
  rw [unsigned?, hwhole, if_neg hzero, hrest, fraction?_fractionText hn h]
  simp [exponent?_ending hn h]

/-- However a number is spelled, it is read. -/
theorem ofText?_spelled {cs : List Char} (h : n.Spelled cs) : ofText? cs = some n := by
  obtain ⟨hn, hending⟩ := h
  rw [← unsigned?_spelled hn hending, signText]
  cases n.negative with
  | true => rfl
  | false =>
    cases hwhole : n.whole with
    | nil => exact absurd hwhole hn.whole_ne_nil
    | cons d ds =>
      have hd := hn.whole_digits d (hwhole ▸ List.mem_cons_self)
      have hminus : d ≠ '-' := by rintro rfl; cases hd
      simp [ofText?, hminus]

/-- Whatever an integer is, it can be written. -/
theorem wellFormed_ofInt (i : Int) : (ofInt i).WellFormed where
  whole_ne_nil := Decimal.digits_ne_nil _
  whole_digits _ := Decimal.isDigit_of_mem_digits
  no_leading_zero := Decimal.digits_of_head_zero
  fraction ds h := by cases h
  exponent sign ds h := by cases h

end Numeral

theorem ofBare?_spelled {n : Numeral} {cs : List Char} (h : n.Spelled cs) :
    ofBare? (asciiText cs) = some (.number n) := by
  have hback : (asciiText cs).map Char.ofUInt8 = cs := by
    rw [asciiText, List.map_map]
    conv => rhs; rw [← List.map_id cs]
    exact List.map_congr_left fun c hc =>
      Numeral.ofUInt8_of_isSign (Numeral.isSign_of_mem_spelled h hc)
  have hword : ∀ {word : List Char} {c : Char}, c ∈ word → Numeral.isSign c = false →
      cs ≠ word := by
    rintro word c hc hsign rfl
    rw [Numeral.isSign_of_mem_spelled h hc] at hsign
    cases hsign
  have hnull : cs ≠ ['n', 'u', 'l', 'l'] := hword (c := 'u') (by decide) (by decide)
  have htrue : cs ≠ ['t', 'r', 'u', 'e'] := hword (c := 'u') (by decide) (by decide)
  have hfalse : cs ≠ ['f', 'a', 'l', 's', 'e'] := hword (c := 'a') (by decide) (by decide)
  simp only [ofBare?, hback, hnull, htrue, hfalse, if_false, Numeral.ofText?_spelled h,
    Option.map_some]

/-! ## Values -/

namespace Builder

/-- No value begins with the mark that closes an array. -/
theorem tokens_eq_cons (j : Json) : ∃ t ts, j.tokens = t :: ts ∧ t ≠ .closeArray := by
  cases j with
  | bool b => cases b <;> exact ⟨_, _, rfl, by simp⟩
  | _ => exact ⟨_, _, rfl, by simp⟩

/-- An array that holds something begins like the value of its first item. -/
theorem foldlM_arrayStart (j : Json) (outer : List Open) :
    j.tokens.foldlM step (.arrayStart outer) = j.tokens.foldlM step (.value (.array [] :: outer))
    := by
  obtain ⟨t, ts, htokens, hne⟩ := tokens_eq_cons j
  have hstep : step (.arrayStart outer) t = step (.value (.array [] :: outer)) t := by
    cases t with
    | closeArray => exact absurd rfl hne
    | _ => rfl
  rw [htokens, List.foldlM_cons, List.foldlM_cons, hstep]

mutual

/-- The tokens of a value make up the value, inside whatever is open. -/
theorem foldlM_tokens : ∀ (j : Json) (outer : List Open), j.WellFormed →
    j.tokens.foldlM step (.value outer) = some (.complete j outer)
  | .null, _, _ => rfl
  | .bool true, _, _ => rfl
  | .bool false, _, _ => rfl
  | .number n, outer, h => by
    rw [WellFormed] at h
    simp [tokens, step, begin?, ofBare?_spelled (Numeral.spelled_text h)]
  | .string t, _, _ => rfl
  | .array [], _, _ => rfl
  | .array (v :: vs), outer, h => by
    rw [WellFormed, WellFormedItems] at h
    rw [tokens, itemTokens, List.foldlM_cons, List.append_assoc]
    simp only [step, begin?, Option.bind_eq_bind, Option.bind_some]
    rw [List.foldlM_append, foldlM_arrayStart, foldlM_tokens v _ h.1]
    exact foldlM_moreItems vs v [] outer h.2
  | .object [], _, _ => rfl
  | .object ((k, v) :: ms), outer, h => by
    rw [WellFormed, WellFormedMembers, WellFormedMember] at h
    rw [tokens, memberTokens, memberToken, List.foldlM_cons, List.append_assoc]
    simp only [step, begin?, Option.bind_eq_bind, Option.bind_some, List.cons_append,
      List.foldlM_cons]
    rw [List.foldlM_append, foldlM_tokens v _ h.1.2]
    exact foldlM_moreMembers ms k v [] outer h.2

theorem foldlM_moreItems : ∀ (vs : List Json) (v : Json) (before : List Json) (outer : List Open),
    WellFormedItems vs →
    (moreItemTokens vs ++ [Token.closeArray]).foldlM step (.complete v (.array before :: outer))
      = some (.complete (.array (before.reverse ++ v :: vs)) outer)
  | [], v, before, outer, _ => by
    rw [moreItemTokens, List.nil_append, List.foldlM_cons]
    simp [step]
  | w :: vs, v, before, outer, h => by
    rw [WellFormedItems] at h
    rw [moreItemTokens, List.cons_append, List.foldlM_cons, List.append_assoc]
    simp only [step, Option.bind_eq_bind, Option.bind_some]
    rw [List.foldlM_append, foldlM_tokens w _ h.1]
    simpa using foldlM_moreItems vs w (v :: before) outer h.2

theorem foldlM_moreMembers : ∀ (ms : List (Text × Json)) (k : Text) (v : Json)
    (before : List (Text × Json)) (outer : List Open), WellFormedMembers ms →
    (moreMemberTokens ms ++ [Token.closeObject]).foldlM step
        (.complete v (.object before k :: outer))
      = some (.complete (.object (before.reverse ++ (k, v) :: ms)) outer)
  | [], k, v, before, outer, _ => by
    rw [moreMemberTokens, List.nil_append, List.foldlM_cons]
    simp [step]
  | (l, w) :: ms, k, v, before, outer, h => by
    rw [WellFormedMembers, WellFormedMember] at h
    rw [moreMemberTokens, memberToken, List.cons_append, List.foldlM_cons, List.append_assoc]
    simp only [step, Option.bind_eq_bind, Option.bind_some, List.cons_append, List.foldlM_cons]
    rw [List.foldlM_append, foldlM_tokens w _ h.1.2]
    simpa using foldlM_moreMembers ms l w ((k, v) :: before) outer h.2

end

end Builder

/-- The tokens of a value are read as the value. -/
theorem ofTokens?_tokens {j : Json} (h : j.WellFormed) : ofTokens? j.tokens = some j := by
  rw [ofTokens?, Builder.foldlM_tokens j [] h]
  rfl

/-- Tokens that mean the same are taken in the same way. -/
theorem Builder.step_alike (b : Builder) {t u : Token} (h : Token.Alike t u) :
    b.step t = b.step u := by
  cases h with
  | refl => rfl
  | number h =>
    have hbare := ofBare?_spelled h
    rw [← ofBare?_spelled (Numeral.spelled_text h.wellFormed)] at hbare
    cases b <;> simp [step, begin?, hbare]

theorem ofTokens?_alike {ts us : List Token} (h : List.Forall₂ Token.Alike ts us) :
    ofTokens? ts = ofTokens? us := by
  have hfold : ∀ b : Builder, ts.foldlM Builder.step b = us.foldlM Builder.step b := by
    induction h with
    | nil => exact fun _ => rfl
    | cons hlike _ ih =>
      intro b
      rw [List.foldlM_cons, List.foldlM_cons, b.step_alike hlike]
      simp only [ih]
  rw [ofTokens?, hfold, ofTokens?]

/-- Whatever text of a value is read, it is read as the value. -/
theorem parse?_spaced {j : Json} {octets : List UInt8} (h : Spaced j octets) :
    parse? octets = some j := by
  obtain ⟨ts, htokens, hlike⟩ := tokens?_spaced h
  rw [parse?, htokens, Option.bind_some, ofTokens?_alike hlike, ofTokens?_tokens h.wellFormed]

/-- What was written is read. -/
theorem parse?_render {j : Json} (h : j.WellFormed) : parse? j.render = some j :=
  parse?_spaced (spelled_render j h).spaced

end TopicDirectory.Json
