import ImageLint.Proofs.Document.Legible
import ImageLint.Proofs.Json.Reading
import ImageLint.Report.Json

/-!
# The JSON report can be read

Arrays and objects of a JSON report are at most six deep inside one another, and its numbers are
integers. So the text of a report is cut into the tokens of the value that was written
(`tokens_renderJson`), and it is read as this value, as long as its counts fit 64 bits
(`parse_renderJson`).
-/

namespace ImageLint

open Json

theorem Json.legible_nat {n : Nat} (h : n < UInt64.size) (depth : Nat) :
    Legible depth (.nat n) := by
  have hword : (UInt64.ofNat n).toNat = n := UInt64.toNat_ofNat_of_lt' h
  rw [← hword]
  exact legible_word depth _

theorem Json.integral_nat (n : Nat) : Integral (.nat n) := by
  rw [nat, ← Number.ofInt_natCast]
  exact .number n

theorem DirectoryDeployment.legible (depth : Nat) (d : DirectoryDeployment) :
    Legible (depth + 2) d.toJson := by
  have location := Location.legible_optional depth d.location
  have warning := Diagnostic.legible depth d.warning
  have suggestions : Legible (depth + 1) (Json.option Json.strings d.suggestions) :=
    legible_option (fun lines => legible_map (legible_string depth) lines) d.suggestions
  rw [toJson, legible_object]
  simp [location, warning, suggestions]

namespace Report

theorem legible {r : Report} (errors : r.errorCount < UInt64.size)
    (warnings : r.warningCount < UInt64.size) (depth : Nat) : Legible (depth + 4) r.toJson := by
  have file := legible_option (legible_string (depth + 3)) r.file
  have diagnostics : Legible (depth + 3) r.diagnosticsJson :=
    legible_map (Diagnostic.legible (depth + 1)) r.diagnostics
  have directories : Legible (depth + 3) r.directoriesJson :=
    legible_map (DirectoryDeployment.legible depth) r.directoryDeployments
  rw [toJson, legible_object]
  simp [file, legible_nat errors, legible_nat warnings, diagnostics, directories]

theorem legible_listJson {rs : List Report}
    (each : ∀ r ∈ rs, r.errorCount < UInt64.size ∧ r.warningCount < UInt64.size)
    (errors : (totals rs).errors < UInt64.size) (warnings : (totals rs).warnings < UInt64.size)
    (depth : Nat) : Legible (depth + 6) (listJson rs) := by
  have files : Legible (depth + 5) (.array (rs.map toJson)) := by
    rw [legible_array]
    intro v hv
    obtain ⟨r, hr, rfl⟩ := List.mem_map.mp hv
    exact legible (each r hr).1 (each r hr).2 depth
  have summary : Legible (depth + 5) (totals rs).toJson := by
    rw [Totals.toJson, legible_object]
    simp [legible_nat errors, legible_nat warnings]
  rw [listJson, legible_object]
  simp only [List.mem_cons, List.not_mem_nil, or_false, forall_eq_or_imp, forall_eq]
  exact ⟨files, summary⟩

theorem integral (r : Report) : Integral r.toJson := by
  have file : Integral (Json.option .string r.file) :=
    (legible_option (legible_string 0) r.file).integral
  have diagnostics : Integral r.diagnosticsJson :=
    (legible_map (Diagnostic.legible 0) r.diagnostics).integral
  have directories : Integral r.directoriesJson :=
    (legible_map (DirectoryDeployment.legible 0) r.directoryDeployments).integral
  refine .object ?_
  simp [file, integral_nat, diagnostics, directories]

theorem integral_listJson (rs : List Report) : Integral (listJson rs) := by
  have files : Integral (.array (rs.map toJson)) := by
    refine .array fun v hv => ?_
    obtain ⟨r, -, rfl⟩ := List.mem_map.mp hv
    exact integral r
  have summary : Integral (totals rs).toJson := by
    refine .object ?_
    simp [integral_nat]
  refine .object ?_
  simp only [List.mem_cons, List.not_mem_nil, or_false, forall_eq_or_imp, forall_eq]
  exact ⟨files, summary⟩

/-- The text of a report is made of the tokens of its value, and of nothing else. -/
theorem tokens_renderJson (rs : List Report) :
    tokens (renderJson rs).toList = spell (listJson rs) := by
  have end_ : tokens ['\n'] = [] := (tokens_of_isSpace rfl []).trans tokens_nil
  have ends : EndsNumber ['\n'] := endsNumber_cons.mpr (by decide)
  have inside := tokens_indented (integral_listJson rs) 0 ends
  rw [end_, List.append_nil] at inside
  have chars : (renderJson rs).toList = indented 0 (listJson rs) ++ ['\n'] := by
    simp [renderJson, indentedText]
  rw [chars]
  exact inside

/-- The text of a report is read as the value of the report. -/
theorem parse_renderJson {rs : List Report}
    (each : ∀ r ∈ rs, r.errorCount < UInt64.size ∧ r.warningCount < UInt64.size)
    (errors : (totals rs).errors < UInt64.size) (warnings : (totals rs).warnings < UInt64.size) :
    Json.parse (renderJson rs) = .ok (listJson rs) :=
  parse_of_tokens (tokens_renderJson rs) (legible_listJson each errors warnings 121)

end Report

end ImageLint
