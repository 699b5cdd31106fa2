import TopicDirectory.Proofs.Directory.Generations
import TopicDirectory.Proofs.Service.Invariant

/-!
# The snapshots that a directory has had

A generation counts the changes that were made, so in the order in which a directory has its
snapshots their generations never become smaller, and two with the same generation are the same
(`Had.ordered`).  All this up to `2 ^ 64` requests, the range of a generation.
-/

namespace TopicDirectory

/-! ## Generations -/

/-- Generations never become smaller, and with the generation the registry stays the same. -/
theorem generation_fed_append (frames more : List (List UInt8))
    (h : (frames ++ more).length < UInt64.size) :
    (Registry.fed {} frames).generation.toNat ≤ (Registry.fed {} (frames ++ more)).generation.toNat ∧
      ((Registry.fed {} frames).generation = (Registry.fed {} (frames ++ more)).generation →
        Registry.fed {} frames = Registry.fed {} (frames ++ more)) := by
  -- no more changes are made than frames are dealt with
  have hle := Registry.changes_le {} (frames ++ more)
  have hchanges := Registry.changes_append {} frames more
  have hstart : ({} : Registry).generation.toNat = 0 := rfl
  have hbefore : (Registry.fed {} frames).generation.toNat = 0 + Registry.changes {} frames :=
    Registry.generation_fed (by omega)
  have hafter : (Registry.fed {} (frames ++ more)).generation.toNat
      = 0 + Registry.changes {} (frames ++ more) := Registry.generation_fed (by omega)
  refine ⟨by omega, fun hsame => ?_⟩
  have hnone : (Registry.fed {} frames).changes more = 0 := by
    have htoNat := congrArg UInt64.toNat hsame
    omega
  rw [Registry.fed_append, Registry.fed_of_changes_eq_zero hnone]

namespace Service

/-! ## Snapshots -/

/-- Whether a snapshot is one that the directory has had. -/
def Had (log : List Event) (s : Snapshot) : Prop :=
  ∃ past, past <+: log ∧ s = (registryAfter past).snapshot

/-- The current snapshot. -/
def current (s : Service) : Snapshot := s.server.state.registry.snapshot

theorem Sane.current {s : Service} (h : Sane s) : s.current = (registryAfter s.log).snapshot := by
  rw [Service.current, h.registry]

theorem Sane.had_current {s : Service} (h : Sane s) : Had s.log s.current :=
  ⟨s.log, List.prefix_refl _, h.current⟩

theorem Had.mono {log log' : List Event} {s : Snapshot} (h : Had log s) (hlog : log <+: log') :
    Had log' s := by
  obtain ⟨past, hpast, rfl⟩ := h
  exact ⟨past, hpast.trans hlog, rfl⟩

theorem requests_mono {log log' : List Event} (h : log <+: log') : requests log <+: requests log' :=
  h.filterMap _

/-- Of two moments the later one has the greater generation, or the registry has not changed. -/
theorem generation_registryAfter {past log : List Event} (h : past <+: log)
    (hlog : (requests log).length < UInt64.size) :
    (registryAfter past).generation.toNat ≤ (registryAfter log).generation.toNat ∧
      ((registryAfter past).generation = (registryAfter log).generation →
        registryAfter past = registryAfter log) := by
  obtain ⟨more, hmore⟩ := requests_mono h
  have hlength : (requests past ++ more).length < UInt64.size := by
    rw [hmore]
    exact hlog
  have hfed := generation_fed_append (requests past) more hlength
  rw [hmore] at hfed
  exact hfed

/-- No snapshot that the directory has had is newer than the current one. -/
theorem Had.eq_of_le {log : List Event} {s : Snapshot} (h : Had log s)
    (hlog : (requests log).length < UInt64.size)
    (hle : (registryAfter log).generation ≤ s.generation) : s = (registryAfter log).snapshot := by
  obtain ⟨past, hpast, rfl⟩ := h
  obtain ⟨hge, hsame⟩ := generation_registryAfter hpast hlog
  have hle' : (registryAfter log).generation.toNat ≤ (registryAfter past).generation.toNat := hle
  rw [hsame (UInt64.toNat_inj.1 (Nat.le_antisymm hge hle'))]

/-- Of two snapshots the directory had the one with the smaller generation first. -/
theorem Had.ordered {log log' : List Event} {s s' : Snapshot} (h : Had log s) (h' : Had log' s')
    (hlog : log <+: log') (hlength : (requests log').length < UInt64.size)
    (hle : s.generation ≤ s'.generation) :
    ∃ past past', past <+: log ∧ past <+: past' ∧ past' <+: log' ∧
      s = (registryAfter past).snapshot ∧ s' = (registryAfter past').snapshot := by
  obtain ⟨past, hpast, rfl⟩ := h
  obtain ⟨past', hpast', rfl⟩ := h'
  rcases List.prefix_or_prefix_of_prefix (hpast.trans hlog) hpast' with hbefore | hafter
  · exact ⟨past, past', hpast, hbefore, hpast', rfl, rfl⟩
  · have hlength' : (requests past).length < UInt64.size :=
      Nat.lt_of_le_of_lt (requests_mono (hpast.trans hlog)).length_le hlength
    -- the later one is not newer, so the registry has not changed in between
    have hsame : (registryAfter past').snapshot = (registryAfter past).snapshot :=
      Had.eq_of_le ⟨past', hafter, rfl⟩ hlength' hle
    exact ⟨past, past, hpast, List.prefix_refl _, hpast.trans hlog, rfl, hsame⟩

end Service

end TopicDirectory
