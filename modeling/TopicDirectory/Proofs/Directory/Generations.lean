import TopicDirectory.Proofs.Directory.Dispatch
import TopicDirectory.Proofs.Service.Log

/-!
# Generations count changes

The frames that a registry is fed change it or leave it as it is, and its generation counts those
that change it (`generation_fed`).  So of two registries of one run the later one has the greater
generation, or there was no change in between and they are the same (`snapshot_leadsTo_fed`): with
fewer than `2 ^ 64` changes, a generation names one registry.
-/

namespace TopicDirectory.Registry

open Directory (dispatch dispatch_registry)

/-- How many of some frames change the registry. -/
def changes (r : Registry) : List (List UInt8) → Nat
  | [] => 0
  | frame :: frames =>
    (if (dispatch r frame).changed.isSome then 1 else 0)
      + ((dispatch r frame).registry r).changes frames

theorem fed_append (r : Registry) (frames more : List (List UInt8)) :
    r.fed (frames ++ more) = (r.fed frames).fed more := by
  simp only [fed, List.foldl_append]

theorem changes_append (r : Registry) (frames more : List (List UInt8)) :
    r.changes (frames ++ more) = r.changes frames + (r.fed frames).changes more := by
  induction frames generalizing r with
  | nil => simp [changes, fed]
  | cons frame frames ih =>
    rw [List.cons_append, changes, changes, ih, fed, fed, List.foldl_cons, Nat.add_assoc]

theorem changes_le (r : Registry) (frames : List (List UInt8)) :
    r.changes frames ≤ frames.length := by
  induction frames generalizing r with
  | nil => exact Nat.le_refl _
  | cons frame frames ih =>
    have hrest := ih ((dispatch r frame).registry r)
    rw [changes, List.length_cons]
    split <;> omega

/-- Where there was no change the registry is the same. -/
theorem fed_of_changes_eq_zero {r : Registry} {frames : List (List UInt8)}
    (h : r.changes frames = 0) : r.fed frames = r := by
  induction frames generalizing r with
  | nil => rfl
  | cons frame frames ih =>
    rw [changes] at h
    rcases dispatch_registry r frame with ⟨-, hsame⟩ | ⟨s, hchanged, -⟩
    · rw [hsame] at h
      rw [fed, List.foldl_cons, hsame]
      exact ih (by omega)
    · rw [hchanged] at h
      simp at h

theorem toNat_add_one {g : UInt64} (h : g.toNat + 1 < UInt64.size) :
    (g + 1).toNat = g.toNat + 1 := by
  rw [UInt64.toNat_add]
  exact Nat.mod_eq_of_lt h

/-- As long as the generations do not wrap, they count the changes. -/
theorem generation_fed {r : Registry} {frames : List (List UInt8)}
    (h : r.generation.toNat + r.changes frames < UInt64.size) :
    (r.fed frames).generation.toNat = r.generation.toNat + r.changes frames := by
  induction frames generalizing r with
  | nil => rfl
  | cons frame frames ih =>
    rw [changes] at h ⊢
    rw [fed, List.foldl_cons, ← fed]
    rcases dispatch_registry r frame with ⟨hchanged, hsame⟩ | ⟨s, hchanged, hs, hgeneration⟩
    · rw [hchanged, hsame] at h ⊢
      simpa using ih (by simpa using h)
    · rw [hchanged, hs] at h ⊢
      simp only [Option.isSome_some, if_true] at h ⊢
      have hnext : s.generation.toNat = r.generation.toNat + 1 := by
        rw [hgeneration]
        exact toNat_add_one (by omega)
      rw [ih (by omega), hnext, Nat.add_assoc]

/-! ## The snapshots of a run -/

/-- The snapshots after those frames that change the registry. -/
def versions (r : Registry) : List (List UInt8) → List Snapshot
  | [] => []
  | frame :: frames =>
    ((dispatch r frame).changed.map snapshot).toList
      ++ ((dispatch r frame).registry r).versions frames

theorem versions_append (r : Registry) (frames more : List (List UInt8)) :
    r.versions (frames ++ more) = r.versions frames ++ (r.fed frames).versions more := by
  induction frames generalizing r with
  | nil => rfl
  | cons frame frames ih =>
    rw [List.cons_append, versions, versions, ih, fed, fed, List.foldl_cons, List.append_assoc]

theorem versions_concat (r : Registry) (frames : List (List UInt8)) (frame : List UInt8) :
    r.versions (frames ++ [frame])
      = r.versions frames ++ ((dispatch (r.fed frames) frame).changed.map snapshot).toList := by
  rw [versions_append, versions, versions, List.append_nil]

/-- The last of them is the current one. -/
theorem snapshot_fed (r : Registry) (frames : List (List UInt8)) :
    (r.fed frames).snapshot = (r.versions frames).getLastD r.snapshot := by
  induction frames generalizing r with
  | nil => rfl
  | cons frame frames ih =>
    rw [fed, List.foldl_cons, ← fed, ih, versions]
    rcases dispatch_registry r frame with ⟨hchanged, hsame⟩ | ⟨s, hchanged, hs, -⟩
    · rw [hchanged, hsame]
      rfl
    · rw [hchanged, hs]
      exact List.getLastD_cons.symm

/-- Their generations go up by one. -/
theorem generations_versions (r : Registry) (frames : List (List UInt8)) :
    (r.versions frames).map (·.generation)
      = (List.range' 1 (r.versions frames).length).map fun k => r.generation + UInt64.ofNat k := by
  induction frames generalizing r with
  | nil => rfl
  | cons frame frames ih =>
    rw [versions]
    rcases dispatch_registry r frame with ⟨hchanged, hsame⟩ | ⟨s, hchanged, hs, hgeneration⟩
    · rw [hchanged, hsame]
      exact ih r
    · have hone : s.generation = r.generation + UInt64.ofNat 1 := hgeneration
      have hstep : ∀ k, s.generation + UInt64.ofNat k = r.generation + UInt64.ofNat (1 + k) := by
        intro k
        rw [hone, UInt64.ofNat_add, UInt64.add_assoc]
      rw [hchanged, hs]
      show s.generation :: (s.versions frames).map (·.generation)
        = (List.range' 1 ((s.versions frames).length + 1)).map _
      rw [ih s, List.range'_succ, List.map_cons, ← hone, Nat.add_comm 1 1, ← List.map_add_range',
        List.map_map]
      exact congrArg _ (List.map_congr_left fun k _ => hstep k)

end TopicDirectory.Registry

namespace TopicDirectory

/-- Whether a directory can have had a snapshot and then another one: the generation has not become
smaller, and if it has not become greater nothing has changed. -/
def Snapshot.LeadsTo (x y : Snapshot) : Prop :=
  x.generation ≤ y.generation ∧ (y.generation ≤ x.generation → y = x)

theorem Snapshot.leadsTo_refl (x : Snapshot) : x.LeadsTo x :=
  ⟨UInt64.le_refl _, fun _ => rfl⟩

theorem Snapshot.LeadsTo.trans {x y z : Snapshot} (h : x.LeadsTo y) (h' : y.LeadsTo z) :
    x.LeadsTo z := by
  refine ⟨UInt64.le_trans h.1 h'.1, fun hle => ?_⟩
  have hyx : y = x := h.2 (UInt64.le_trans h'.1 hle)
  have hzy : z = y := h'.2 (UInt64.le_trans hle h.1)
  exact hzy.trans hyx

/-- Of two snapshots of one directory the one with the smaller generation comes first. -/
theorem Snapshot.leadsTo_of_le {x y : Snapshot} (h : x.LeadsTo y ∨ y.LeadsTo x)
    (hle : x.generation ≤ y.generation) : x.LeadsTo y := by
  rcases h with h | h
  · exact h
  · rw [h.2 hle]
    exact leadsTo_refl y

/-- In one run with fewer than `2 ^ 64` changes, a registry has its snapshots in this order. -/
theorem Registry.snapshot_leadsTo_fed {r : Registry} {frames : List (List UInt8)}
    (h : r.generation.toNat + r.changes frames < UInt64.size) :
    r.snapshot.LeadsTo (r.fed frames).snapshot := by
  have hcount := generation_fed h
  constructor
  · rw [UInt64.le_iff_toNat_le, generation_snapshot, generation_snapshot, hcount]
    exact Nat.le_add_right _ _
  · intro hle
    rw [UInt64.le_iff_toNat_le, generation_snapshot, generation_snapshot, hcount] at hle
    have hnone : r.changes frames = 0 := by omega
    rw [fed_of_changes_eq_zero hnone]

end TopicDirectory
