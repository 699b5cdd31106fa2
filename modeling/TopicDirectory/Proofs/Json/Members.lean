import Mathlib.Data.List.Nodup
import TopicDirectory.Proofs.Json.Values

/-!
# Members in any order

Named fields are read from every object that holds them (`Holds`): the members may come in any order
and among members of any other names, and a field may be left out that has its default.  The reader
gets the fields in the order in which it asks for them, each as it is held (`Holds.fields?_eq`).
-/

namespace TopicDirectory.Json

/-- The members of an object, if their names are all strings. -/
def namedMembers : Json → List (String × Json)
  | .object members => (named? members).getD []
  | _ => []

theorem namedMembers_ofFields (fs : List (String × Json)) : (ofFields fs).namedMembers = fs := by
  rw [ofFields, namedMembers, named?_ofFields, Option.getD_some]

/-- The members of an object hold the fields of `j`: they are, in any order, fields of `j` and
members of other names; a field that is not among them is one of `default`. -/
inductive Holds (j default : Json) (members : List (Text × Json)) : Prop
  | intro {named given others : List (String × Json)} (hnamed : named? members = some named)
    (hperm : named.Perm (given ++ others)) (hgiven : given.Sublist j.namedMembers)
    (hleft : ∀ f ∈ j.namedMembers, f ∉ given → f ∈ default.namedMembers)
    (hothers : ∀ m ∈ others, m.1 ∉ j.namedMembers.map Prod.fst)

/-- What is held of a field: its value, or nothing if it is one of `defaults`. -/
def Held (defaults : List (String × Json)) (f : String × Json) (x : Option Json) : Prop :=
  x = some f.2 ∨ x = none ∧ f ∈ defaults

variable {fs defaults named given others : List (String × Json)} {f : String × Json}

/-- The name of a field tells it from the others. -/
theorem filter_name (hnodup : (fs.map Prod.fst).Nodup) (hf : f ∈ fs) :
    fs.filter (fun m => m.1 = f.1) = [f] := by
  induction fs with
  | nil => cases hf
  | cons e es ih =>
    rw [List.map_cons, List.nodup_cons] at hnodup
    rcases List.mem_cons.1 hf with rfl | hf
    · have hnone : es.filter (fun m => m.1 = f.1) = [] := by
        refine List.filter_eq_nil_iff.2 fun m hm hname => hnodup.1 ?_
        exact of_decide_eq_true hname ▸ List.mem_map_of_mem hm
      rw [List.filter_cons_of_pos (by simp), hnone]
    · have hne : e.1 ≠ f.1 := fun h => hnodup.1 (h ▸ List.mem_map_of_mem hf)
      rw [List.filter_cons_of_neg (by simpa using hne), ih hnodup.2 hf]

/-- The members of the name of a field are those given. -/
theorem filter_perm (hperm : named.Perm (given ++ others))
    (hothers : ∀ m ∈ others, m.1 ∉ fs.map Prod.fst) (hf : f ∈ fs) :
    (named.filter fun m => m.1 = f.1).Perm (given.filter fun m => m.1 = f.1) := by
  have hnone : others.filter (fun m => m.1 = f.1) = [] := by
    refine List.filter_eq_nil_iff.2 fun m hm hname => hothers m hm ?_
    exact of_decide_eq_true hname ▸ List.mem_map_of_mem hf
  have hfilter := hperm.filter fun m => m.1 = f.1
  rwa [List.filter_append, hnone, List.append_nil] at hfilter

theorem unique?_of_given (hnodup : (fs.map Prod.fst).Nodup) (hperm : named.Perm (given ++ others))
    (hgiven : given.Sublist fs) (hothers : ∀ m ∈ others, m.1 ∉ fs.map Prod.fst) (hf : f ∈ given) :
    unique? named f.1 = some (some f.2) := by
  have hfilter := filter_perm hperm hothers (hgiven.subset hf)
  rw [filter_name ((hgiven.map Prod.fst).nodup hnodup) hf, List.perm_singleton] at hfilter
  rw [unique?, hfilter]

theorem unique?_of_not_given (hnodup : (fs.map Prod.fst).Nodup)
    (hperm : named.Perm (given ++ others)) (hgiven : given.Sublist fs)
    (hothers : ∀ m ∈ others, m.1 ∉ fs.map Prod.fst) (hf : f ∈ fs) (hnot : f ∉ given) :
    unique? named f.1 = some none := by
  have hnone : given.filter (fun m => m.1 = f.1) = [] := by
    refine List.filter_eq_nil_iff.2 fun m hm hname => hnot ?_
    exact List.inj_on_of_nodup_map hnodup (hgiven.subset hm) hf (of_decide_eq_true hname) ▸ hm
  have hfilter := filter_perm hperm hothers hf
  rw [hnone, List.perm_nil] at hfilter
  rw [unique?, hfilter]

/-- An object that is written with all its names as they are. -/
theorem Holds.of_perm (hperm : named.Perm (given ++ others)) (hgiven : given.Sublist fs)
    (hleft : ∀ f ∈ fs, f ∉ given → f ∈ defaults) (hothers : ∀ m ∈ others, m.1 ∉ fs.map Prod.fst) :
    Holds (ofFields fs) (ofFields defaults) (named.map fun f => (Text.ofString f.1, f.2)) := by
  refine .intro (named?_ofFields named) hperm ?_ ?_ ?_
  · rwa [namedMembers_ofFields]
  · rwa [namedMembers_ofFields, namedMembers_ofFields]
  · rwa [namedMembers_ofFields]

/-- A reader gets the fields in their own order, each as it is held. -/
theorem Holds.fields?_eq {members : List (Text × Json)}
    (h : Holds (ofFields fs) (ofFields defaults) members) (names : List String)
    (hnames : fs.map Prod.fst = names) (hnodup : names.Nodup) :
    ∃ xs, fields? names (.object members) = some xs ∧ List.Forall₂ (Held defaults) fs xs := by
  obtain ⟨hnamed, hperm, hgiven, hleft, hothers⟩ := h
  rename_i named given others
  rw [namedMembers_ofFields] at hgiven hleft hothers
  rw [namedMembers_ofFields] at hleft
  subst hnames
  have hheld : ∀ f ∈ fs, ∃ x, unique? named f.1 = some x ∧ Held defaults f x := by
    intro f hf
    by_cases hmem : f ∈ given
    · exact ⟨_, unique?_of_given hnodup hperm hgiven hothers hmem, .inl rfl⟩
    · exact ⟨_, unique?_of_not_given hnodup hperm hgiven hothers hf hmem,
        .inr ⟨rfl, hleft f hf hmem⟩⟩
  have hall : ∀ gs : List (String × Json), gs ⊆ fs → ∃ xs,
      (gs.map Prod.fst).mapM (unique? named) = some xs ∧ List.Forall₂ (Held defaults) gs xs := by
    intro gs
    induction gs with
    | nil => exact fun _ => ⟨[], rfl, .nil⟩
    | cons g gs ih =>
      intro hsub
      obtain ⟨x, hx, hxheld⟩ := hheld g (hsub List.mem_cons_self)
      obtain ⟨xs, hxs, hxsheld⟩ := ih fun f hf => hsub (List.mem_cons_of_mem _ hf)
      exact ⟨x :: xs, by simp [hx, hxs], .cons hxheld hxsheld⟩
  obtain ⟨xs, hxs, hxsheld⟩ := hall fs fun _ hf => hf
  exact ⟨xs, by rw [fields?, hnamed]; exact hxs, hxsheld⟩

/-- A field with a default is read from whatever is held of it. -/
theorem fieldOr_of_held {α : Type} {default a : α} {read : Json → Option α} {name : String}
    {j : Json} {x : Option Json} (hx : Held defaults (name, j) x) (hread : read j = some a)
    (hdefault : ∀ k, (name, k) ∈ defaults → read k = some default) :
    fieldOr default read x = some a := by
  rcases hx with rfl | ⟨rfl, hmem⟩
  · exact hread
  · rw [fieldOr, ← hread, hdefault j hmem]

end TopicDirectory.Json
