import CueSheet.Proofs.Document.Sections
import CueSheet.Proofs.Lists

/-!
# The sections of a document have different identifiers

The sections of a song have the identifiers that are allocated to the labels of the groups of lines
with content, in order, so that a group without content takes no identifier from the ones behind it.
Identifiers that are allocated one after the other are all different, each is the next one behind
those before it, and the search for each comes to an end.
-/

namespace CueSheet.Document

variable {ρ : Rounding} {config : Config} {text : List Char} {document : Document}

/-- The labels for which identifiers are allocated: those of the groups with content, in order. -/
def contentLabels (text : List Char) : List String :=
  ((groups (numberedLines text)).filter fun group => !group.content.isEmpty).map (·.label)

/-- The sections have the labels of the groups with content. -/
theorem labels_of_read (h : read ρ config text = .ok document) :
    document.song.sections.map (·.label) = contentLabels text := by
  refine eq_map_of_forall₂ ?_
  rw [List.forall₂_map_right_iff]
  exact (holds_of_read h).imp fun group part hholds => hholds.label

/-- The sections have the identifiers that are allocated to the labels of the groups with content.
-/
theorem ids_of_read (h : read ρ config text = .ok document) :
    document.song.sections.map (·.id) = SectionId.allocateAll (contentLabels text) := by
  obtain ⟨settings, -, opens, -, -, hsong, -⟩ := closesAs_of_read h
  rw [← labels_of_read h, hsong]
  exact closeAll_ids rfl opens

/-- Identifiers are allocated one after the other: each is the slug of its label, or else the slug
with the least number from two on that is not in use, the search for it ends after at most as many
rounds as there are identifiers before it, and all identifiers are different. The sections of a song
that is read have the identifiers of the groups with content, so these are different too, and the
groups without content take none. -/
theorem ids_distinct (ρ : Rounding) (config : Config) :
    (∀ labels, SectionId.AreAllocated labels (SectionId.allocateAll labels) ∧
      (SectionId.allocateAll labels).Nodup) ∧
    ∀ (text : List Char) (document : Document), read ρ config text = .ok document →
      document.song.sections.map (·.id) = SectionId.allocateAll (contentLabels text) ∧
        (document.song.sections.map (·.id)).Nodup := by
  refine ⟨fun labels => ?_, fun text document h => ?_⟩
  · exact ⟨SectionId.areAllocated_allocateAll labels, SectionId.nodup_allocateAll labels⟩
  · rw [ids_of_read h]
    exact ⟨rfl, SectionId.nodup_allocateAll _⟩

/-- A document in which four sections share a label, one of them is empty, and the label of another
one is what the second of them would be called. -/
def repeatedText : List Char :=
  "[Verse]\nla\n[Verse 2]\nla\n[Verse]\n[Verse]\nla\n[Verse]\nla".toList

/-- Four sections have content and three of them one label, and their identifiers are all different.
-/
theorem ids_distinct_repeated : ∃ document,
    read .binary64 .standard repeatedText = .ok document ∧
      document.song.sections.map (·.id) = ["verse", "verse-2", "verse-3", "verse-4"] ∧
      (document.song.sections.map (·.id)).Nodup := by
  have hyields : yields (read .binary64 .standard repeatedText) (fun _ => true) = true := by
    decide +kernel
  obtain ⟨document, h, -⟩ := exists_of_yields hyields
  obtain ⟨hids, hdistinct⟩ := (ids_distinct .binary64 .standard).2 repeatedText document h
  refine ⟨document, h, hids.trans ?_, hdistinct⟩
  have hlabels : contentLabels repeatedText = ["Verse", "Verse 2", "Verse", "Verse"] := by
    decide +kernel
  rw [hlabels]
  -- The set that the search asks is not evaluated here, so the list stands in for it.
  simp only [SectionId.allocateAll, SectionId.allocate, SectionId.firstFree_eq]
  decide +kernel

end CueSheet.Document
