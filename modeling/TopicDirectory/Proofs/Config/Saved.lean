import TopicDirectory.Proofs.Json.Layout
import TopicDirectory.Proofs.Wire.Tolerance

/-!
# Saved settings

The settings of a directory are saved as a text of their JSON value that spreads over lines, and
loaded from it as they were, whatever they are and whether or not they can be used
(`Server.load_save`).
-/

namespace TopicDirectory.Config.Server

theorem wellFormed_toJson (c : Server) : c.toJson.WellFormed := by
  apply Json.wellFormed_ofFields
  intro f hf
  simp only [List.mem_cons, List.not_mem_nil, or_false] at hf
  rcases hf with rfl | rfl | rfl | rfl | rfl
  · exact Json.wellFormed_ofString c.bindHost
  all_goals exact Json.wellFormed_ofInt _

/-- All settings are written, so none is read as its default. -/
theorem ofJson?_toJson (c : Server) : ofJson? c.toJson = some c :=
  ofJson?_of_holds (.of_perm (.of_eq (List.append_nil _).symm) (List.Sublist.refl _)
    (fun _ hf hnot => absurd hf hnot) nofun)

/-- What is saved is a text of the settings. -/
theorem spaced_save (c : Server) : Json.Spaced c.toJson c.save :=
  (Json.spelled_renderLines 0 c.toJson c.wellFormed_toJson).spaced

/-- What is saved is UTF-8. -/
theorem legible_save (c : Server) : Json.Legible c.save := by
  apply Json.legible_renderLines_ofFields
  intro f hf depth
  simp only [List.mem_cons, List.not_mem_nil, or_false] at hf
  rcases hf with rfl | rfl | rfl | rfl | rfl
  · exact Json.legible_renderLines_ofString c.bindHost depth
  all_goals exact Json.legible_renderLines_ofInt _ depth

theorem load_of_save (c : Server) : load (some c.save) = .ok c := by
  obtain ⟨text, htext⟩ := c.legible_save
  have hspaced := c.spaced_save
  rw [htext] at hspaced ⊢
  exact load_of_spaced hspaced c.ofJson?_toJson

/-- **Saved settings are loaded as they were.**  The text that is saved of any settings of a
directory is UTF-8 and one of the texts of their value, and it is loaded:

* what is loaded from it are the settings, with their endpoints and with what keeps them from being
  used, if anything does;
* saving what is loaded gives that text again, and no other settings give it. -/
theorem load_save (c : Server) :
    (∃ text : String, c.save = Utf8.encode text ∧ Json.Spaced c.toJson (Utf8.encode text)) ∧
    load (some c.save) = .ok c ∧
    (∀ d, load (some c.save) = .ok d → d = c ∧ d.validate = c.validate ∧
      d.commandEndpoint = c.commandEndpoint ∧ d.broadcastEndpoint = c.broadcastEndpoint ∧
      d.save = c.save) ∧
    ∀ d : Server, d.save = c.save → d = c := by
  have hload := c.load_of_save
  obtain ⟨text, htext⟩ := c.legible_save
  refine ⟨⟨text, htext, htext ▸ c.spaced_save⟩, hload, fun d hd => ?_, fun d hd => ?_⟩
  · obtain rfl : d = c := Except.ok.inj (hd.symm.trans hload)
    exact ⟨rfl, rfl, rfl, rfl, rfl⟩
  · have hother := d.load_of_save
    rw [hd, hload] at hother
    exact (Except.ok.inj hother).symm

end TopicDirectory.Config.Server
