import ImageLint.Document.Encoder
import ImageLint.Proofs.Json.Spelling

/-!
# Documents are legible

All numbers of a document are 64 bit words, and its arrays and objects are at most eight deep inside
one another. For each part, `depth` is what its place in a larger value leaves over.
-/

namespace ImageLint

namespace Json

@[simp] theorem legible_word (depth : Nat) (n : UInt64) : Legible depth (.nat n.toNat) := by
  have lower : -Int.pow 2 63 ≤ 0 := by decide
  have upper : (n.toNat : Int) < Int.pow 2 64 := Int.ofNat_lt.mpr n.toNat_lt
  refine legible_number.mpr ?_
  exact ⟨n.toNat, by omega, upper, (Number.ofInt_natCast n.toNat).symm⟩

theorem legible_option {α : Type} {encode : α → Json} {depth : Nat}
    (h : ∀ a, Legible depth (encode a)) (o : Option α) : Legible depth (Json.option encode o) := by
  cases o with
  | none => exact legible_null depth
  | some a => exact h a

theorem legible_map {α : Type} {encode : α → Json} {depth : Nat}
    (h : ∀ a, Legible depth (encode a)) (as : List α) :
    Legible (depth + 1) (.array (as.map encode)) := by
  rw [legible_array]
  intro v hv
  obtain ⟨a, -, rfl⟩ := List.mem_map.mp hv
  exact h a

end Json

open Json

theorem Location.legible (depth : Nat) (l : Location) : Legible (depth + 1) l.toJson := by
  simp [toJson]

theorem Location.legible_optional (depth : Nat) (l : Option Location) :
    Legible (depth + 1) (optionalJson l) := legible_option (legible depth) l

theorem Attribute.legible (depth : Nat) (a : Attribute) : Legible (depth + 2) a.toJson := by
  cases a <;> simp [toJson, Location.legible_optional depth]

theorem AttributeSection.legible (depth : Nat) (s : AttributeSection) :
    Legible (depth + 4) s.toJson := by
  have attributes := legible_map (Attribute.legible depth) s.attributes
  have location := Location.legible_optional (depth + 2) s.location
  rw [toJson, legible_object]
  simp [attributes, location]

theorem Content.legible (depth : Nat) (c : Content) : Legible (depth + 2) c.toJson := by
  cases c <;> simp [toJson, Location.legible_optional depth]

theorem Statement.legible (depth : Nat) (s : Statement) : Legible (depth + 5) s.toJson := by
  have attributes := legible_option (AttributeSection.legible depth) s.attributeSection
  have location := Location.legible_optional (depth + 3) s.location
  match s with
  | .attribute s =>
    rw [toJson, legible_object]
    simpa using ⟨attributes, location⟩
  | .deployment s =>
    have content := legible_option (Content.legible (depth + 2)) s.content
    rw [toJson, legible_object]
    simpa using ⟨attributes, content, location⟩

theorem Model.legible (depth : Nat) (m : Model) : Legible (depth + 7) m.toJson := by
  have statements := legible_map (Statement.legible depth) m.statements
  rw [toJson, legible_object]
  simpa using statements

theorem Diagnostic.legible (depth : Nat) (d : Diagnostic) : Legible (depth + 1) d.toJson := by
  have text := legible_option (legible_string depth)
  have word := legible_option (legible_word depth)
  simp [toJson, text, word]

theorem Document.legible (depth : Nat) (d : Document) : Legible (depth + 8) d.toJson := by
  have file := legible_option (legible_string (depth + 7)) d.file
  have model := Model.legible depth d.model
  have diagnostics := legible_map (Diagnostic.legible (depth + 5)) d.syntaxDiagnostics
  rw [toJson, legible_object]
  intro m hm
  rcases List.mem_cons.mp hm with rfl | hm
  · exact file
  rcases List.mem_cons.mp hm with rfl | hm
  · exact model
  cases List.mem_singleton.mp hm
  exact diagnostics

end ImageLint
