import TopicDirectory.Proofs.Json.RoundTrip

/-!
# Texts that break off

The text of an object is read only if all of it is there (`parse?_of_prefix`), wherever it is cut.

A value that begins with a mark is complete only with a mark that closes it (`Builder.closes`), so at
the end of a text that is read as such a value the scanner stands between tokens, and what follows
leaves the tokens as they are (`Scan.tokens_run`).  A mark that follows is one more token, if it is
not in a string that never ends (`Scan.finish?_step_mark`); and a value that is complete takes none
(`Builder.foldlM_complete`).  So nothing that goes on to a closing mark can be cut off behind a value.
-/

namespace TopicDirectory.Json

/-! ## Tokens that were found -/

namespace Scan

theorem tokens_begin (ts : List Token) (b : UInt8) : ts <:+ (begin ts b).tokens := by
  unfold begin
  split
  · exact List.suffix_refl ts
  · split
    · exact List.suffix_refl ts
    · split
      · exact List.suffix_cons _ ts
      · exact List.suffix_refl ts

/-- An octet takes away no token. -/
theorem tokens_step {s t : Scan} {b : UInt8} (h : s.step b = some t) : s.tokens <:+ t.tokens := by
  obtain ⟨ts, mode⟩ := s
  cases mode with
  | between =>
    cases h
    exact tokens_begin ts b
  | bare seen =>
    simp only [step] at h
    split at h
    · cases h
      exact (List.suffix_cons _ ts).trans (tokens_begin _ b)
    · cases h
      exact List.suffix_refl ts
  | quoted seen =>
    simp only [step] at h
    split at h
    · cases h
      exact List.suffix_cons _ ts
    · split at h
      · cases h
        exact List.suffix_refl ts
      · split at h
        · cases h
        · cases h
          exact List.suffix_refl ts
  | escaped seen =>
    simp only [step] at h
    split at h
    · cases h
      exact List.suffix_refl ts
    · obtain ⟨u, -, rfl⟩ := Option.map_eq_some_iff.1 h
      exact List.suffix_refl ts
  | hex seen bits left =>
    obtain ⟨d, -, rfl⟩ := Option.map_eq_some_iff.1 h
    cases left <;> exact List.suffix_refl ts

theorem tokens_run {s t : Scan} {octets : List UInt8} (h : s.run octets = some t) :
    s.tokens <:+ t.tokens := by
  induction octets generalizing s with
  | nil =>
    cases h
    exact List.suffix_refl _
  | cons b bs ih =>
    rw [run_cons, Option.bind_eq_some_iff] at h
    obtain ⟨u, hstep, hrun⟩ := h
    exact (tokens_step hstep).trans (ih hrun)

/-- A text ends between tokens, or with a bare token. -/
theorem finish?_eq_some {s : Scan} {ts : List Token} (h : s.finish? = some ts) :
    (s = ⟨ts.reverse, .between⟩) ∨ ∃ seen, ts = s.tokens.reverse ++ [.bare seen] := by
  obtain ⟨found, mode⟩ := s
  cases mode with
  | between =>
    cases h
    exact .inl (by rw [List.reverse_reverse])
  | bare seen =>
    cases h
    exact .inr ⟨seen.reverse, List.reverse_cons⟩
  | quoted seen => cases h
  | escaped seen => cases h
  | hex seen bits left => cases h

/-- Where a text ends with a mark, the mark is one token more. -/
theorem finish?_step_mark {s t : Scan} {b : UInt8} {mark : Token} {ts : List Token}
    (hb : mark? b = some mark) (hstep : s.step b = some t) (hfinish : t.finish? = some ts) :
    ∃ us, us ≠ [] ∧ ts = s.tokens.reverse ++ us := by
  obtain ⟨hspace, hquote⟩ := ne_of_mark? hb
  have hbegin (found : List Token) : begin found b = ⟨mark :: found, .between⟩ := by
    simp [begin, hspace, hquote, hb]
  obtain ⟨found, mode⟩ := s
  cases mode with
  | between =>
    cases hstep
    rw [hbegin] at hfinish
    cases hfinish
    exact ⟨[mark], List.cons_ne_nil _ _, List.reverse_cons⟩
  | bare seen =>
    have hdelimits : delimits b = true := by simp [delimits, hb]
    simp only [step, hdelimits, if_true, Option.some.injEq] at hstep
    subst hstep
    rw [hbegin] at hfinish
    cases hfinish
    exact ⟨[.bare seen.reverse, mark], List.cons_ne_nil _ _, by simp⟩
  -- inside a string it takes a quote to get out of it
  | quoted seen =>
    simp only [step, hquote, if_false] at hstep
    split at hstep
    · cases hstep
      cases hfinish
    · split at hstep
      · cases hstep
      · cases hstep
        cases hfinish
  | escaped seen =>
    simp only [step] at hstep
    split at hstep
    · cases hstep
      cases hfinish
    · obtain ⟨u, -, rfl⟩ := Option.map_eq_some_iff.1 hstep
      cases hfinish
  | hex seen bits left =>
    obtain ⟨d, -, rfl⟩ := Option.map_eq_some_iff.1 hstep
    cases left <;> cases hfinish

end Scan

/-! ## Values that are complete -/

namespace Builder

/-- What is complete, and in nothing, takes no token. -/
theorem foldlM_complete {v : Json} {ts : List Token} (h : ts ≠ []) :
    ts.foldlM step (.complete v []) = none := by
  cases ts with
  | nil => exact absurd rfl h
  | cons t ts =>
    rw [List.foldlM_cons]
    rfl

/-- What a value begins with leaves open what is open. -/
theorem outer_of_begin? {outer outer' : List Open} {t : Token} {v : Json}
    (h : begin? outer t = some (.complete v outer')) : outer' = outer := by
  cases t with
  | string s =>
    cases h
    rfl
  | bare octets =>
    obtain ⟨w, -, hw⟩ := Option.map_eq_some_iff.1 h
    cases hw
    rfl
  | _ => cases h

theorem begin?_ne_value (outer outer' : List Open) (t : Token) :
    begin? outer t ≠ some (.value outer') := by
  intro h
  cases t with
  | bare octets =>
    obtain ⟨v, -, hv⟩ := Option.map_eq_some_iff.1 h
    cases hv
  | _ => cases h

/-- A value is waited for in nothing only before the first token. -/
theorem step_ne_value_nil (b : Builder) (t : Token) : step b t ≠ some (.value []) := by
  intro h
  unfold step at h
  split at h
  any_goals cases h
  · exact begin?_ne_value _ _ _ h
  · exact begin?_ne_value _ _ _ h

/-- A value is complete in nothing with its first token or with a mark that closes it. -/
theorem closes_of_step {b : Builder} {t : Token} {v : Json}
    (h : step b t = some (.complete v [])) :
    b = .value [] ∨ t = .closeArray ∨ t = .closeObject := by
  unfold step at h
  split at h
  any_goals cases h
  any_goals exact .inr (.inl rfl)
  any_goals exact .inr (.inr rfl)
  · obtain rfl := outer_of_begin? h
    exact .inl rfl
  · cases outer_of_begin? h

theorem foldlM_concat_eq_some {ts : List Token} {t : Token} {b c : Builder} :
    (ts ++ [t]).foldlM step b = some c ↔ ∃ b', ts.foldlM step b = some b' ∧ step b' t = some c := by
  simp [List.foldlM_append, Option.bind_eq_some_iff]

/-- A value of more than one token ends with a mark that closes it. -/
theorem closes {ts : List Token} {t : Token} {v : Json}
    (h : (ts ++ [t]).foldlM step (.value []) = some (.complete v [])) :
    ts = [] ∨ t = .closeArray ∨ t = .closeObject := by
  obtain ⟨b, hb, hstep⟩ := foldlM_concat_eq_some.1 h
  rcases closes_of_step hstep with rfl | hclose
  · rcases List.eq_nil_or_concat ts with rfl | ⟨before, last, rfl⟩
    · exact .inl rfl
    · rw [List.concat_eq_append] at hb
      obtain ⟨b', -, hvalue⟩ := foldlM_concat_eq_some.1 hb
      exact absurd hvalue (step_ne_value_nil b' last)
  · exact .inr hclose

end Builder

/-! ## Texts that are read -/

theorem parse?_eq_some_iff {octets : List UInt8} {v : Json} :
    parse? octets = some v ↔ ∃ s ts, Scan.start.run octets = some s ∧ s.finish? = some ts ∧
      ts.foldlM Builder.step (.value []) = some (.complete v []) := by
  constructor
  · intro h
    obtain ⟨ts, htokens, h⟩ := Option.bind_eq_some_iff.1 h
    obtain ⟨s, hrun, hfinish⟩ := Option.bind_eq_some_iff.1 htokens
    obtain ⟨b, hfold, hb⟩ := Option.bind_eq_some_iff.1 h
    refine ⟨s, ts, hrun, hfinish, ?_⟩
    unfold Builder.finish? at hb
    split at hb
    · cases hb
      exact hfold
    · cases hb
  · rintro ⟨s, ts, hrun, hfinish, hfold⟩
    rw [parse?, tokens?, hrun, Option.bind_some, hfinish, Option.bind_some, ofTokens?, hfold]
    rfl

variable {b : UInt8} {mark : Token}

/-- At the end of a value that begins with a mark the scanner is between tokens. -/
theorem run_of_parse? (hb : mark? b = some mark) {octets : List UInt8} {v : Json}
    (h : parse? (b :: octets) = some v) :
    ∃ ts : List Token, Scan.start.run (b :: octets) = some ⟨ts.reverse, .between⟩ ∧
      ts.foldlM Builder.step (.value []) = some (.complete v []) := by
  obtain ⟨s, ts, hrun, hfinish, hfold⟩ := parse?_eq_some_iff.1 h
  rcases Scan.finish?_eq_some hfinish with rfl | ⟨seen, rfl⟩
  · exact ⟨ts, hrun, hfold⟩
  · -- a bare token would be the only one, but the mark comes before it
    obtain ⟨hspace, hquote⟩ := ne_of_mark? hb
    have hbegin : Scan.start.step b = some ⟨[mark], .between⟩ := by
      simp [Scan.start, Scan.step, Scan.begin, hspace, hquote, hb]
    rw [Scan.run_cons, hbegin, Option.bind_some] at hrun
    have hmark : [mark] <:+ s.tokens := Scan.tokens_run hrun
    rcases Builder.closes hfold with hnil | hclose | hclose
    · rw [List.reverse_eq_nil_iff.1 hnil] at hmark
      cases List.suffix_nil.1 hmark
    · cases hclose
    · cases hclose

/-- Behind a value that begins with a mark there can be no mark. -/
theorem parse?_append_mark (hb : mark? b = some mark) {octets : List UInt8} {v : Json}
    (h : parse? (b :: octets) = some v) {closing : UInt8} {mark' : Token}
    (hclosing : mark? closing = some mark') (more : List UInt8) :
    parse? ((b :: octets) ++ (more ++ [closing])) = none := by
  obtain ⟨ts, hrun, hfold⟩ := run_of_parse? hb h
  refine Option.eq_none_iff_forall_ne_some.2 fun w hw => ?_
  obtain ⟨s, all, hrunAll, hfinish, hfoldAll⟩ := parse?_eq_some_iff.1 hw
  rw [Scan.run_append, hrun, Option.bind_some, Scan.run_append, Option.bind_eq_some_iff] at hrunAll
  obtain ⟨u, hmore, hlast⟩ := hrunAll
  rw [Scan.run_cons, Option.bind_eq_some_iff] at hlast
  obtain ⟨s', hstep, hnil⟩ := hlast
  cases hnil
  obtain ⟨us, hne, rfl⟩ := Scan.finish?_step_mark hclosing hstep hfinish
  obtain ⟨found, hfound⟩ : ts.reverse <:+ u.tokens := Scan.tokens_run hmore
  rw [← hfound, List.reverse_append, List.reverse_reverse, List.append_assoc, List.foldlM_append,
    hfold, Option.bind_eq_bind, Option.bind_some, Builder.foldlM_complete (by simp [hne])]
    at hfoldAll
  cases hfoldAll

/-- **An object is read only if all of it is there.**  No text of an object that breaks off is read
as a value. -/
theorem parse?_of_prefix {members : List (Text × Json)} (h : (object members).WellFormed)
    {front : List UInt8} (hfront : front <+: (object members).render)
    (hne : front ≠ (object members).render) : parse? front = none := by
  obtain ⟨rest, hrest⟩ := hfront
  cases front with
  | nil => rfl
  | cons b octets =>
    have hopen : mark? b = some .openObject := by
      rw [render] at hrest
      rw [(List.cons.inj hrest).1]
      rfl
    rcases List.eq_nil_or_concat rest with rfl | ⟨more, closing, rfl⟩
    · rw [List.append_nil] at hrest
      exact absurd hrest hne
    · rw [List.concat_eq_append] at hrest
      have hclose : mark? closing = some .closeObject := by
        rw [render, ← List.append_assoc, ← List.cons_append] at hrest
        rw [(List.cons.inj (List.append_inj' hrest rfl).2).1]
        rfl
      refine Option.eq_none_iff_forall_ne_some.2 fun v hv => ?_
      have hnone := parse?_append_mark hopen hv hclose more
      rw [hrest, parse?_render h] at hnone
      cases hnone

end TopicDirectory.Json
