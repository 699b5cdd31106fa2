import TopicDirectory.Watch.Run

/-!
# Who is followed

Whatever a follower is, and however it is stopped and started: after a snapshot the publishers that
declare the topic are followed and nobody else (`contains_follow`), those that were followed by
followers that had not finished by the same ones (`get?_follow_of_kept`).

What the tool follows at work is followed in this way (`followers_seeSnapshot`).
-/

namespace TopicDirectory

/-- Whether a snapshot lists an id with a topic. -/
def Snapshot.Declares (s : Snapshot) (topic : String) (id : UInt32) : Prop :=
  ∃ r, s.get? id = some r ∧ r.hasTopic topic = true

/-- Whether every record of a snapshot is under its own id. -/
def Snapshot.OwnIds (s : Snapshot) : Prop := ∀ id r, s.get? id = some r → r.id = some id

theorem Snapshot.mem_withTopic {s : Snapshot} {topic : String} {r : Record} :
    r ∈ s.withTopic topic ↔ (∃ id, s.get? id = some r) ∧ r.hasTopic topic = true := by
  rw [withTopic, List.mem_filter, IdMap.mem_values]
  exact Iff.rfl

namespace Watch

variable {τ σ : Type} {finished : τ → Bool} {stop : τ → σ → σ} {start : Record → σ → τ × σ}
  {followers m : IdMap τ} {s : Snapshot} {topic : String} {id : UInt32} {t : τ} {world w : σ}

/-! ## Going on and being dropped -/

theorem goesOn_eq_true :
    goesOn finished s topic id t = true ↔ s.Declares topic id ∧ finished t = false := by
  rw [goesOn, Bool.and_eq_true, Bool.not_eq_true', Option.any_eq_true]
  exact Iff.rfl

theorem get?_kept : (kept finished followers s topic).get? id = some t ↔
    followers.get? id = some t ∧ s.Declares topic id ∧ finished t = false := by
  rw [kept, IdMap.get?_filter_eq_some, goesOn_eq_true]

theorem mem_dropped : t ∈ dropped finished followers s topic ↔
    ∃ id, followers.get? id = some t ∧ ¬ (s.Declares topic id ∧ finished t = false) := by
  simp only [dropped, IdMap.mem_values, IdMap.get?_filter_eq_some, Bool.not_eq_true',
    Bool.eq_false_iff, ne_eq, goesOn_eq_true]

/-! ## Being followed anew -/

/-- A publisher is passed over if it has no id or is followed already, else it is followed. -/
theorem begin_cases (start : Record → σ → τ × σ) (m : IdMap τ) (w : σ) (r : Record) :
    (begin start (m, w) r = (m, w) ∧ ∀ id, r.id = some id → m.contains id = true) ∨
      ∃ id, r.id = some id ∧ m.get? id = none ∧
        begin start (m, w) r = (m.insert id (start r w).1, (start r w).2) := by
  rw [begin]
  split
  · rename_i hnone
    exact .inl ⟨rfl, fun id hid => nomatch hnone.symm.trans hid⟩
  · rename_i id hid
    split
    · rename_i hcontains
      refine .inl ⟨rfl, fun id' hid' => ?_⟩
      obtain rfl : id = id' := Option.some.inj (hid.symm.trans hid')
      exact hcontains
    · rename_i hfree
      exact .inr ⟨id, hid, Option.not_isSome_iff_eq_none.1 hfree, rfl⟩

/-- What holds of the followers and the world, and is kept by following one more publisher that
nobody follows, holds in the end. -/
theorem foldl_begin_induct {P : IdMap τ → σ → Prop} {rs : List Record} (h : P m w)
    (hbegin : ∀ (m : IdMap τ) (w : σ) (r : Record) (id : UInt32), r ∈ rs → r.id = some id →
      m.get? id = none → P m w → P (m.insert id (start r w).1) (start r w).2) :
    P (rs.foldl (begin start) (m, w)).1 (rs.foldl (begin start) (m, w)).2 := by
  induction rs generalizing m w with
  | nil => exact h
  | cons r rs ih =>
    have hrest := fun m w r' id hr' => hbegin m w r' id (List.mem_cons_of_mem r hr')
    rw [List.foldl_cons]
    rcases begin_cases start m w r with ⟨hsame, -⟩ | ⟨id, hid, hfree, hbegun⟩
    · rw [hsame]
      exact ih h hrest
    · rw [hbegun]
      exact ih (hbegin m w r id List.mem_cons_self hid hfree h) hrest

/-- Whoever is followed already stays followed by the same follower. -/
theorem get?_foldl_begin (rs : List Record) (h : m.get? id = some t) :
    (rs.foldl (begin start) (m, w)).1.get? id = some t := by
  refine foldl_begin_induct (P := fun m _ => m.get? id = some t) h fun m w r id' _ _ hfree hm => ?_
  have hne : id ≠ id' := by
    rintro rfl
    cases hm.symm.trans hfree
  rw [IdMap.get?_insert, if_neg hne]
  exact hm

/-- Whoever is to be followed is followed. -/
theorem contains_foldl_begin {rs : List Record} {r : Record} (hr : r ∈ rs) (hid : r.id = some id) :
    (rs.foldl (begin start) (m, w)).1.contains id = true := by
  have hstays : ∀ {m : IdMap τ} {w : σ} (rs : List Record), m.contains id = true →
      (rs.foldl (begin start) (m, w)).1.contains id = true := by
    intro m w rs hm
    obtain ⟨t, ht⟩ := Option.isSome_iff_exists.1 hm
    exact Option.isSome_iff_exists.2 ⟨t, get?_foldl_begin rs ht⟩
  induction rs generalizing m w with
  | nil => cases hr
  | cons r' rs ih =>
    rw [List.foldl_cons]
    rcases List.mem_cons.1 hr with rfl | hr
    · rcases begin_cases start m w r with ⟨hsame, hcontains⟩ | ⟨id', hid', -, hbegun⟩
      · rw [hsame]
        exact hstays rs (hcontains id hid)
      · obtain rfl : id = id' := Option.some.inj (hid.symm.trans hid')
        rw [hbegun]
        refine hstays rs ?_
        rw [IdMap.contains, IdMap.get?_insert, if_pos rfl]
        rfl
    · exact ih hr

/-! ## After a snapshot -/

/-- Whoever follows a publisher that declares the topic still, and has not finished, goes on. -/
theorem get?_follow_of_kept (hid : followers.get? id = some t) (hdeclares : s.Declares topic id)
    (hfinished : finished t = false) :
    (follow finished stop start followers s topic world).1.get? id = some t :=
  get?_foldl_begin _ (get?_kept.2 ⟨hid, hdeclares, hfinished⟩)

/-- What holds once those that do not go on have been stopped, and is kept by following one more
publisher that declares the topic and that nobody follows, holds after a snapshot. -/
theorem follow_induct {P : IdMap τ → σ → Prop}
    (h : P (kept finished followers s topic)
      ((dropped finished followers s topic).foldl (fun w t => stop t w) world))
    (hbegin : ∀ (m : IdMap τ) (w : σ) (r : Record) (id id' : UInt32), s.get? id' = some r →
      r.hasTopic topic = true → r.id = some id → m.get? id = none → P m w →
      P (m.insert id (start r w).1) (start r w).2) :
    P (follow finished stop start followers s topic world).1
      (follow finished stop start followers s topic world).2 := by
  refine foldl_begin_induct h fun m w r id hr hid hfree hm => ?_
  obtain ⟨⟨id', hget⟩, htopic⟩ := Snapshot.mem_withTopic.1 hr
  exact hbegin m w r id id' hget htopic hid hfree hm

/-- The publishers that declare the topic are followed, and nobody else. -/
theorem contains_follow (hown : s.OwnIds) :
    (follow finished stop start followers s topic world).1.contains id = true
      ↔ s.Declares topic id := by
  constructor
  · intro hcontains
    obtain ⟨t, ht⟩ := Option.isSome_iff_exists.1 hcontains
    have hall : ∀ id t, (follow finished stop start followers s topic world).1.get? id = some t →
        s.Declares topic id := by
      refine follow_induct (P := fun m _ => ∀ id t, m.get? id = some t → s.Declares topic id)
        (fun id t ht => (get?_kept.1 ht).2.1) fun m w r id id' hget htopic hid hfree hm => ?_
      obtain rfl : id' = id := Option.some.inj ((hown id' r hget).symm.trans hid)
      intro id t ht
      rw [IdMap.get?_insert] at ht
      split at ht
      · rename_i heq
        exact heq ▸ ⟨r, hget, htopic⟩
      · exact hm id t ht
    exact hall id t ht
  · rintro ⟨r, hget, htopic⟩
    exact contains_foldl_begin (Snapshot.mem_withTopic.2 ⟨⟨id, hget⟩, htopic⟩) (hown id r hget)

/-! ## The tool at work -/

@[simp] theorem publisher_startFollower (topic : String) (r : Record) (world : Watch × Network) :
    (startFollower topic r world).1.publisher = r := by
  rw [startFollower]
  split <;> rfl

/-- What the tool follows after it has dealt with a snapshot: the publishers that declare its topic,
those whose subscription lasts by the same follower, and the others by their records of now. -/
theorem followers_seeSnapshot {w : Watch} (n : Network) (htopic : w.arguments.topic = some topic)
    (hown : s.OwnIds) :
    (∀ id, (w.seeSnapshot n s).1.followers.contains id = true ↔ s.Declares topic id) ∧
    (∀ id f, w.followers.get? id = some f → f.subscription.isSome = true → s.Declares topic id →
      (w.seeSnapshot n s).1.followers.get? id = some f) ∧
    ∀ id f, (w.seeSnapshot n s).1.followers.get? id = some f →
      (w.followers.get? id = some f ∧ f.subscription.isSome = true) ∨
        s.get? id = some f.publisher := by
  have hfollow : (w.seeSnapshot n s).1.followers
      = (follow (fun f => f.subscription.isNone) stopFollower (startFollower topic) w.followers s
          topic (w, n)).1 := by
    rw [seeSnapshot, htopic]
  rw [hfollow]
  refine ⟨fun id => contains_follow hown, fun id f hid hlasts hdeclares => ?_, ?_⟩
  · refine get?_follow_of_kept hid hdeclares ?_
    rw [Option.isNone_eq_false_iff]
    exact hlasts
  · refine follow_induct (P := fun m _ => ∀ id f, m.get? id = some f →
      (w.followers.get? id = some f ∧ f.subscription.isSome = true) ∨
        s.get? id = some f.publisher) (fun id f hid => ?_)
      fun m world r id id' hget _ hid _ hm i f hi => ?_
    · obtain ⟨hbefore, -, hlasts⟩ := get?_kept.1 hid
      exact .inl ⟨hbefore, Option.isNone_eq_false_iff.1 hlasts⟩
    · obtain rfl : id' = id := Option.some.inj ((hown id' r hget).symm.trans hid)
      rw [IdMap.get?_insert] at hi
      split at hi
      · rename_i heq
        obtain rfl := heq
        obtain rfl := Option.some.inj hi
        rw [publisher_startFollower]
        exact .inr hget
      · exact hm i f hi

end Watch

end TopicDirectory
