import DataCopilot.Library.Text

/-! A section of a document, with the bounds its fields keep, and what parsing a document can
raise. -/
namespace DataCopilot.Retrieval

/-- A field of a section has from 1 to `most` characters. -/
def Bounded (most : Nat) (field : String) : Prop := 1 ≤ field.length ∧ field.length ≤ most

instance (most : Nat) (field : String) : Decidable (Bounded most field) :=
  inferInstanceAs (Decidable (_ ∧ _))

structure DocumentSection where
  sectionKey : String
  title : String
  sourceLocator : String
  content : String
  sectionKey_bounded : Bounded 500 sectionKey
  title_bounded : Bounded 500 title
  sourceLocator_bounded : Bounded 120 sourceLocator
  content_bounded : Bounded 100000 content
deriving DecidableEq, Repr

inductive ParsingError where
  | documentParseError
  | documentLimitError
  /-- The names of the fields that are out of bounds. -/
  | validationError (fields : List String)
deriving DecidableEq, Repr

namespace DocumentSection

/-- The names of the fields that the model's validation refuses. -/
def refused (sectionKey title sourceLocator content : String) : List String :=
  (if Bounded 500 sectionKey then [] else ["section_key"]) ++
  (if Bounded 500 title then [] else ["title"]) ++
  (if Bounded 120 sourceLocator then [] else ["source_locator"]) ++
  (if Bounded 100000 content then [] else ["content"])

def make (sectionKey title sourceLocator content : String) : Except ParsingError DocumentSection :=
  if h : Bounded 500 sectionKey ∧ Bounded 500 title ∧ Bounded 120 sourceLocator ∧
      Bounded 100000 content then
    .ok ⟨sectionKey, title, sourceLocator, content, h.1, h.2.1, h.2.2.1, h.2.2.2⟩
  else .error (.validationError (refused sectionKey title sourceLocator content))

theorem eq_of_make {sectionKey title sourceLocator content : String} {s : DocumentSection}
    (h : make sectionKey title sourceLocator content = .ok s) :
    s.sectionKey = sectionKey ∧ s.title = title ∧ s.sourceLocator = sourceLocator ∧
      s.content = content := by
  rw [make] at h
  by_cases hb : Bounded 500 sectionKey ∧ Bounded 500 title ∧ Bounded 120 sourceLocator ∧
      Bounded 100000 content
  · rw [dif_pos hb] at h
    cases h
    exact ⟨rfl, rfl, rfl, rfl⟩
  · rw [dif_neg hb] at h
    cases h

end DocumentSection
end DataCopilot.Retrieval
