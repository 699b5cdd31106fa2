/-!
# Maps from ids

A map from 32-bit ids keeps its entries in ascending order of the ids, so a map has one form only
(`ext`), and reading its entries from the front visits the ids in order.  `get?_insert`,
`get?_erase` and `get?_adjust` say what each operation does to what the map answers.
-/

namespace TopicDirectory

/-- Entries by id, in ascending order of the ids. -/
structure IdMap (α : Type) where
  entries : List (UInt32 × α)
  ascending : entries.Pairwise fun a b => a.1 < b.1

namespace IdMap

variable {α : Type}

instance [DecidableEq α] : DecidableEq (IdMap α) := fun a b =>
  decidable_of_iff (a.entries = b.entries) (by cases a; cases b; simp)

/-- The map without entries. -/
def empty : IdMap α := ⟨[], .nil⟩

instance : Inhabited (IdMap α) := ⟨empty⟩

/-- The value of an id. -/
def get? (m : IdMap α) (id : UInt32) : Option α := m.entries.lookup id

/-- Whether an id has a value. -/
def contains (m : IdMap α) (id : UInt32) : Bool := (m.get? id).isSome

/-- The ids, in ascending order. -/
def ids (m : IdMap α) : List UInt32 := m.entries.map (·.1)

/-- The values, in ascending order of their ids. -/
def values (m : IdMap α) : List α := m.entries.map (·.2)

/-- The number of entries. -/
def size (m : IdMap α) : Nat := m.entries.length

/-- Whether there are no entries. -/
def isEmpty (m : IdMap α) : Bool := m.entries.isEmpty

/-! ### Insertion -/

/-- Puts an entry where its id belongs, in place of one that is there. -/
def put (id : UInt32) (v : α) : List (UInt32 × α) → List (UInt32 × α)
  | [] => [(id, v)]
  | e :: es =>
    if id < e.1 then (id, v) :: e :: es
    else if id = e.1 then (id, v) :: es
    else e :: put id v es

theorem mem_put {id : UInt32} {v : α} {e : UInt32 × α} {es : List (UInt32 × α)}
    (h : e ∈ put id v es) : e = (id, v) ∨ e ∈ es := by
  induction es with
  | nil => simpa [put] using h
  | cons d ds ih =>
    simp only [put] at h
    split at h
    · exact (List.mem_cons.1 h)
    · split at h
      · rcases List.mem_cons.1 h with h | h
        · exact .inl h
        · exact .inr (List.mem_cons_of_mem _ h)
      · rcases List.mem_cons.1 h with h | h
        · exact .inr (h ▸ List.mem_cons_self)
        · exact (ih h).imp_right (List.mem_cons_of_mem _)

theorem ascending_put {id : UInt32} {v : α} {es : List (UInt32 × α)}
    (h : es.Pairwise fun a b => a.1 < b.1) : (put id v es).Pairwise fun a b => a.1 < b.1 := by
  induction es with
  | nil => simp [put]
  | cons d ds ih =>
    have ⟨hd, hds⟩ := List.pairwise_cons.1 h
    simp only [put]
    split
    · rename_i hlt
      refine List.pairwise_cons.2 ⟨fun b hb => ?_, h⟩
      rcases List.mem_cons.1 hb with rfl | hb
      · exact hlt
      · exact UInt32.lt_trans hlt (hd b hb)
    · split
      · rename_i heq
        exact List.pairwise_cons.2 ⟨fun b hb => heq ▸ hd b hb, hds⟩
      · rename_i hlt hne
        refine List.pairwise_cons.2 ⟨fun b hb => ?_, ih hds⟩
        rcases mem_put hb with rfl | hb
        · exact UInt32.lt_of_le_of_ne (UInt32.not_lt.1 hlt) (Ne.symm hne)
        · exact hd b hb

/-- The map in which an id has the given value. -/
def insert (m : IdMap α) (id : UInt32) (v : α) : IdMap α :=
  ⟨put id v m.entries, ascending_put m.ascending⟩

/-- The map of a list of entries; of two with one id the later one counts. -/
def ofList (es : List (UInt32 × α)) : IdMap α :=
  es.foldl (fun m e => m.insert e.1 e.2) empty

/-! ### Removal and change -/

/-- The map without the entry of an id. -/
def erase (m : IdMap α) (id : UInt32) : IdMap α :=
  ⟨m.entries.filter fun e => e.1 ≠ id, m.ascending.filter _⟩

/-- The map of the entries that satisfy a test. -/
def filter (m : IdMap α) (keep : UInt32 → α → Bool) : IdMap α :=
  ⟨m.entries.filter fun e => keep e.1 e.2, m.ascending.filter _⟩

/-- The map with every value changed. -/
def map {β : Type} (m : IdMap α) (f : α → β) : IdMap β :=
  ⟨m.entries.map fun e => (e.1, f e.2), List.pairwise_map.2 m.ascending⟩

/-- The map with the value of an id changed, if it has one. -/
def adjust (m : IdMap α) (id : UInt32) (f : α → α) : IdMap α :=
  ⟨m.entries.map fun e => (e.1, if e.1 = id then f e.2 else e.2), List.pairwise_map.2 m.ascending⟩

/-! ### What a map answers -/

@[simp] theorem get?_empty (id : UInt32) : (empty : IdMap α).get? id = none := rfl

theorem lookup_cons_eq (e : UInt32 × α) (es : List (UInt32 × α)) (k : UInt32) :
    (e :: es).lookup k = if k = e.1 then some e.2 else es.lookup k := by
  obtain ⟨i, v⟩ := e
  by_cases h : k = i
  · simp [h]
  · simp [List.lookup_cons, h, beq_eq_false_iff_ne.2 h]

theorem lookup_put (id : UInt32) (v : α) (es : List (UInt32 × α)) (k : UInt32) :
    (put id v es).lookup k = if k = id then some v else es.lookup k := by
  induction es with
  | nil => simp [put, lookup_cons_eq]
  | cons d ds ih => grind [put, lookup_cons_eq]

@[simp] theorem get?_insert (m : IdMap α) (id : UInt32) (v : α) (k : UInt32) :
    (m.insert id v).get? k = if k = id then some v else m.get? k :=
  lookup_put id v m.entries k

@[simp] theorem get?_erase (m : IdMap α) (id k : UInt32) :
    (m.erase id).get? k = if k = id then none else m.get? k := by
  simp only [get?, erase]
  induction m.entries with
  | nil => simp
  | cons d ds ih =>
    by_cases hd : d.1 = id
    · simp only [List.filter_cons, hd, ne_eq, not_true_eq_false, decide_false,
        Bool.false_eq_true, if_false, ih, lookup_cons_eq]
      split <;> rfl
    · simp only [List.filter_cons, hd, ne_eq, not_false_eq_true, decide_true, if_true,
        lookup_cons_eq, ih]
      grind

@[simp] theorem get?_adjust (m : IdMap α) (id : UInt32) (f : α → α) (k : UInt32) :
    (m.adjust id f).get? k = if k = id then (m.get? k).map f else m.get? k := by
  simp only [get?, adjust]
  induction m.entries with
  | nil => simp
  | cons d ds ih => simp only [List.map_cons, lookup_cons_eq, ih]; grind

theorem lookup_eq_none_of_lt {id : UInt32} {es : List (UInt32 × α)}
    (h : ∀ e ∈ es, id < e.1) : es.lookup id = none := by
  induction es with
  | nil => rfl
  | cons d ds ih =>
    have hd : id ≠ d.1 := UInt32.ne_of_lt (h d List.mem_cons_self)
    rw [lookup_cons_eq, if_neg hd]
    exact ih fun e he => h e (List.mem_cons_of_mem _ he)

theorem entries_eq_of_lookup {es fs : List (UInt32 × α)}
    (hes : es.Pairwise fun a b => a.1 < b.1) (hfs : fs.Pairwise fun a b => a.1 < b.1)
    (h : ∀ id, es.lookup id = fs.lookup id) : es = fs := by
  induction es generalizing fs with
  | nil =>
    cases fs with
    | nil => rfl
    | cons f fs => simpa [lookup_cons_eq] using h f.1
  | cons e es ih =>
    cases fs with
    | nil => simpa [lookup_cons_eq] using h e.1
    | cons f fs =>
      have ⟨he, hes⟩ := List.pairwise_cons.1 hes
      have ⟨hf, hfs⟩ := List.pairwise_cons.1 hfs
      have hkey : e.1 = f.1 := by
        refine Decidable.byContradiction fun hne => ?_
        rcases UInt32.lt_or_lt_of_ne hne with hlt | hgt
        · have hnone : fs.lookup e.1 = none :=
            lookup_eq_none_of_lt fun x hx => UInt32.lt_trans hlt (hf x hx)
          have := h e.1
          simp [lookup_cons_eq, hne, hnone] at this
        · have hnone : es.lookup f.1 = none :=
            lookup_eq_none_of_lt fun x hx => UInt32.lt_trans hgt (he x hx)
          have := h f.1
          simp [lookup_cons_eq, Ne.symm hne, hnone] at this
      have hvalue : e.2 = f.2 := by
        have := h e.1
        simpa [lookup_cons_eq, hkey] using this
      have hrest : es = fs := by
        refine ih hes hfs fun id => ?_
        by_cases hid : id = e.1
        · subst hid
          rw [lookup_eq_none_of_lt he, lookup_eq_none_of_lt (hkey ▸ hf)]
        · have := h id
          rwa [lookup_cons_eq, lookup_cons_eq, if_neg hid, if_neg (hkey ▸ hid)] at this
      rw [Prod.ext hkey hvalue, hrest]

/-- An entry whose id is greater than all others goes to the end. -/
theorem put_of_lt {id : UInt32} {v : α} {es : List (UInt32 × α)} (h : ∀ e ∈ es, e.1 < id) :
    put id v es = es ++ [(id, v)] := by
  induction es with
  | nil => rfl
  | cons d ds ih =>
    have hd : d.1 < id := h d List.mem_cons_self
    have hlt : ¬ id < d.1 := UInt32.not_lt.2 (UInt32.le_of_lt hd)
    have hne : id ≠ d.1 := (UInt32.ne_of_lt hd).symm
    rw [put, if_neg hlt, if_neg hne, ih fun e he => h e (List.mem_cons_of_mem _ he)]
    rfl

theorem entries_foldl_insert {es : List (UInt32 × α)} (m : IdMap α)
    (h : (m.entries ++ es).Pairwise fun a b => a.1 < b.1) :
    (es.foldl (fun m e => m.insert e.1 e.2) m).entries = m.entries ++ es := by
  induction es generalizing m with
  | nil => simp
  | cons e es ih =>
    have hlt : ∀ d ∈ m.entries, d.1 < e.1 := fun d hd =>
      (List.pairwise_append.1 h).2.2 d hd e List.mem_cons_self
    have hinsert : (m.insert e.1 e.2).entries = m.entries ++ [e] := put_of_lt hlt
    rw [List.foldl_cons, ih _ (by rw [hinsert]; simpa using h), hinsert]
    simp

/-- A map is the map of its entries. -/
@[simp] theorem ofList_entries (m : IdMap α) : ofList m.entries = m := by
  obtain ⟨es, hes⟩ := m
  have h : (es.foldl (fun m e => m.insert e.1 e.2) (empty : IdMap α)).entries = es :=
    entries_foldl_insert empty hes
  rw [ofList]
  generalize List.foldl _ _ _ = n at h ⊢
  obtain ⟨fs, hfs⟩ := n
  cases h
  rfl

theorem mem_iff_lookup {es : List (UInt32 × α)} (h : es.Pairwise fun a b => a.1 < b.1)
    {id : UInt32} {v : α} : (id, v) ∈ es ↔ es.lookup id = some v := by
  induction es with
  | nil => simp
  | cons e es ih =>
    have ⟨he, hes⟩ := List.pairwise_cons.1 h
    rw [List.mem_cons, lookup_cons_eq]
    by_cases hid : id = e.1
    · have hnot : (id, v) ∉ es := fun hmem => UInt32.lt_irrefl _ (hid ▸ he _ hmem)
      rw [if_pos hid]
      constructor
      · rintro (heq | hmem)
        · rw [← heq]
        · exact absurd hmem hnot
      · intro heq
        exact .inl (Prod.ext hid (Option.some.inj heq).symm)
    · rw [if_neg hid, ← ih hes]
      exact or_iff_right fun heq => hid (congrArg Prod.fst heq)

/-- The values of a map are what it answers. -/
theorem mem_values {m : IdMap α} {v : α} : v ∈ m.values ↔ ∃ id, m.get? id = some v := by
  rw [values, List.mem_map]
  constructor
  · rintro ⟨e, he, rfl⟩
    exact ⟨e.1, (mem_iff_lookup m.ascending).1 he⟩
  · rintro ⟨id, h⟩
    exact ⟨(id, v), (mem_iff_lookup m.ascending).2 h, rfl⟩

theorem get?_filter_eq_some {m : IdMap α} {keep : UInt32 → α → Bool} {id : UInt32} {v : α} :
    (m.filter keep).get? id = some v ↔ m.get? id = some v ∧ keep id v = true := by
  rw [get?, get?, ← mem_iff_lookup m.ascending, ← mem_iff_lookup (m.filter keep).ascending]
  exact List.mem_filter

/-- Maps that answer alike are the same map. -/
theorem ext {a b : IdMap α} (h : ∀ id, a.get? id = b.get? id) : a = b := by
  obtain ⟨es, hes⟩ := a
  obtain ⟨fs, hfs⟩ := b
  have := entries_eq_of_lookup hes hfs h
  subst this
  rfl

end IdMap

end TopicDirectory
