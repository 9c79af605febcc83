import ImageLint.Proofs.Duplicate.Groups
import ImageLint.Proofs.Host.Change

/-!
# What is suggested instead of a directory

The deployment of a directory is reported with lines to write instead. Whoever writes them gets rid
of the report and gets into no new trouble: the lines deploy files, not directories, and all to
different target paths.

* `Replacement`: a line as the deployment that it stands for.
* `suggestions_eq`: the lines of a report.
* `suggestions_settle_the_report`: a model with the lines written in place of the deployment.
-/

namespace ImageLint

open Host

/-- A deployment that is suggested: a file of the host and where it goes. -/
structure Replacement where
  target : String
  source : String

namespace Replacement

/-- The line that suggests it. -/
def line (r : Replacement) : String := r.target ++ " = " ++ r.source

/-- The statement says what the line says, whatever its attributes are. -/
def Writes (r : Replacement) (s : DeploymentStatement) : Prop :=
  s.path = r.target ∧ s.sourcePath = some r.source

/-- The deployment of one file below a directory. -/
def ofWay (target source : String) (way : List String) : Replacement where
  target := target ++ (if target.toList.getLast? = some '/' then "" else "/") ++ Text.join "/" way
  source := FileSystem.below source way

/-- The statements have the targets of the suggestions, and each deploys one of them. -/
theorem writes_all {rs : List Replacement} {written : List DeploymentStatement}
    (h : List.Forall₂ Writes rs written) :
    written.map (·.path) = rs.map (·.target) ∧
      ∀ s ∈ written, ∃ r ∈ rs, s.sourcePath = some r.source := by
  induction h with
  | nil => exact ⟨rfl, fun _ hs => nomatch hs⟩
  | @cons r s rs written hrs _ ih =>
    refine ⟨by rw [List.map_cons, List.map_cons, hrs.1, ih.1], ?_⟩
    intro s' hs'
    rcases List.mem_cons.mp hs' with rfl | hs'
    · exact ⟨r, List.mem_cons_self .., hrs.2⟩
    · obtain ⟨r', hr', hsource⟩ := ih.2 s' hs'
      exact ⟨r', List.mem_cons_of_mem r hr', hsource⟩

/-- Two ways lead to different targets. -/
theorem target_ofWay_injective {target source : String} {a b : List String} (ha : a ≠ [])
    (hb : b ≠ []) (hsa : ∀ name ∈ a, '/' ∉ name.toList) (hsb : ∀ name ∈ b, '/' ∉ name.toList)
    (h : (ofWay target source a).target = (ofWay target source b).target) : a = b :=
  Text.join_slash_injective ha hb hsa hsb ((String.append_right_inj _).mp h)

end Replacement

namespace DirectoryDeployment

/-- The deployments that are suggested instead of a deployment of a directory. -/
def replacements (fs : FileSystem) (d : DirectoryDeployment) : List Replacement :=
  match fs.find d.sourcePath with
  | .ok (.directory entries t) =>
    (fs.filesBelow d.sourcePath (.directory entries t)).map
      (Replacement.ofWay d.targetPath d.sourcePath)
  | _ => []

variable {fs : FileSystem} {file : Option String} {s : DeploymentStatement}
  {d : DirectoryDeployment}

theorem suggest_of_ofStatement? (hd : ofStatement? fs file s = some d) :
    d.suggestions = suggest fs d.targetPath d.sourcePath := by
  unfold ofStatement? at hd
  split at hd
  · cases hd
  · split at hd
    · cases hd
      rfl
    · cases hd

theorem suggest_cases {lines : List String} {target source : String}
    (h : suggest fs target source = some lines) :
    ∃ entries t, fs.find source = .ok (.directory entries t) ∧
      lines = (fs.filesBelow source (.directory entries t)).map (line target source) := by
  unfold suggest at h
  split at h
  · next entries t hfind =>
    cases h
    exact ⟨entries, t, hfind, rfl⟩
  · cases h

theorem suggestions_eq (hd : ofStatement? fs file s = some d) {lines : List String}
    (hl : d.suggestions = some lines) : lines = (d.replacements fs).map Replacement.line := by
  rw [suggest_of_ofStatement? hd] at hl
  obtain ⟨entries, t, hfind, rfl⟩ := suggest_cases hl
  unfold replacements
  rw [hfind, List.map_map]
  rfl

theorem mem_filesBelow_iff {source : String} {e : Entry} {way : List String} :
    way ∈ fs.filesBelow source e ↔
      way ∈ e.leaves ∧ fs.isFile (FileSystem.below source way) = true := by
  rw [FileSystem.filesBelow, (List.mergeSort_perm _ _).mem_iff, List.mem_filter]

theorem nodup_filesBelow {e : Entry} (h : e.WellNamed) (source : String) :
    (fs.filesBelow source e).Nodup := by
  rw [FileSystem.filesBelow, (List.mergeSort_perm _ _).nodup_iff]
  exact (nodup_leaves h).filter _

/-- The way to a file below a directory has names, and none of them holds a slash. -/
theorem way_of_mem_filesBelow {entries : List (String × Entry)} {t : Int}
    (h : (Entry.directory entries t).WellNamed) {source : String} {way : List String}
    (hway : way ∈ fs.filesBelow source (.directory entries t)) :
    way ≠ [] ∧ ∀ name ∈ way, '/' ∉ name.toList := by
  have hleaf := (mem_filesBelow_iff.mp hway).1
  obtain ⟨name, -, down, rfl⟩ := exists_cons_of_mem_leavesOf hleaf
  exact ⟨List.cons_ne_nil name down, not_mem_of_mem_leaves h hleaf⟩

theorem isFile_of_mem_replacements {r : Replacement} (h : r ∈ d.replacements fs) :
    fs.isFile r.source = true := by
  unfold replacements at h
  split at h
  · obtain ⟨way, hway, rfl⟩ := List.mem_map.mp h
    exact (mem_filesBelow_iff.mp hway).2
  · cases h

/-- No two suggestions have the same target. -/
theorem nodup_targets_replacements (hfs : fs.root.WellNamed) (d : DirectoryDeployment) :
    ((d.replacements fs).map (·.target)).Nodup := by
  unfold replacements
  split
  · next entries t hfind =>
    obtain ⟨there, hentry⟩ := FileSystem.entry?_of_find hfind
    have hnamed : (Entry.directory entries t).WellNamed := Entry.wellNamed_at? hfs hentry
    rw [List.map_map, List.nodup_map_iff_inj_on (nodup_filesBelow hnamed d.sourcePath)]
    intro a ha b hb hab
    obtain ⟨hane, hslasha⟩ := way_of_mem_filesBelow hnamed ha
    obtain ⟨hbne, hslashb⟩ := way_of_mem_filesBelow hnamed hb
    exact Replacement.target_ofWay_injective hane hbne hslasha hslashb hab
  · exact List.nodup_nil

/-- A deployment of a file is no deployment of a directory, even if it is declared as one. -/
theorem ofStatement?_of_isFile {source : String} (hs : s.sourcePath = some source)
    (hfile : fs.isFile source = true) (file : Option String) : ofStatement? fs file s = none := by
  have hcopies : copiesDirectory fs s source = false := by
    unfold FileSystem.isFile at hfile
    unfold copiesDirectory FileSystem.isPresent FileSystem.isDirectory
    split at hfile
    · next e hfind =>
      rw [hfind]
      cases e <;> simp_all [Entry.isFile, Entry.isDirectory, Except.isOk, Except.toBool]
    · cases hfile
  unfold ofStatement?
  rw [hs]
  dsimp only
  rw [hcopies]
  rfl

end DirectoryDeployment

/-! ## Models with the suggestions written -/

namespace Model

variable (fs : FileSystem) (file : Option String)

theorem deployments_map_deployment (written : List DeploymentStatement) :
    (Model.mk (written.map .deployment)).deployments = written := by
  unfold deployments
  rw [List.filterMap_map]
  exact List.filterMap_some

theorem directoryDeployments_append (before after : List Statement) :
    (Model.mk (before ++ after)).directoryDeployments fs file =
      (Model.mk before).directoryDeployments fs file ++
        (Model.mk after).directoryDeployments fs file := by
  unfold directoryDeployments deployments
  rw [List.filterMap_append, List.filterMap_append]

theorem directoryDeployments_cons {s : DeploymentStatement} {d : DirectoryDeployment}
    (hd : DirectoryDeployment.ofStatement? fs file s = some d) (after : List Statement) :
    (Model.mk (.deployment s :: after)).directoryDeployments fs file =
      d :: (Model.mk after).directoryDeployments fs file := by
  have hs : (Statement.deployment s).deployment? = some s := rfl
  unfold directoryDeployments deployments
  rw [List.filterMap_cons_some hs, List.filterMap_cons_some hd]

/-- A report comes from a statement of the model. -/
theorem exists_of_mem_directoryDeployments {m : Model} {d : DirectoryDeployment}
    (hd : d ∈ m.directoryDeployments fs file) :
    ∃ before s after, m.statements = before ++ .deployment s :: after ∧
      DirectoryDeployment.ofStatement? fs file s = some d := by
  obtain ⟨s, hs, hof⟩ := List.mem_filterMap.mp hd
  obtain ⟨st, hst, hdeployment⟩ := List.mem_filterMap.mp hs
  obtain ⟨before, after, hm⟩ := List.append_of_mem hst
  match st, hdeployment with
  | .deployment _, rfl => exact ⟨before, s, after, hm, hof⟩

/-- **The suggestions settle the report.** Take a deployment of a directory that is reported with
lines to write instead, and statements that say what the lines say, with any attributes. None of
them is reported, no two of them have the same target path, and a model with these statements in
place of the deployment is reported without it and is otherwise reported as before. -/
theorem suggestions_settle_the_report (hfs : fs.root.WellNamed) (m : Model)
    (d : DirectoryDeployment) (hd : d ∈ m.directoryDeployments fs file) (lines : List String)
    (hlines : d.suggestions = some lines) :
    let replacements := d.replacements fs
    lines = replacements.map Replacement.line ∧
      (∀ r ∈ replacements, fs.isFile r.source = true) ∧
      (replacements.map (·.target)).Nodup ∧
      ∀ written : List DeploymentStatement, List.Forall₂ Replacement.Writes replacements written →
        let statements := written.map Statement.deployment
        (Model.mk statements).directoryDeployments fs file = [] ∧
          (Model.mk statements).duplicatePaths = [] ∧
          ∃ before s after, m.statements = before ++ .deployment s :: after ∧
            DirectoryDeployment.ofStatement? fs file s = some d ∧
            m.directoryDeployments fs file =
              (Model.mk before).directoryDeployments fs file ++
                d :: (Model.mk after).directoryDeployments fs file ∧
            (Model.mk (before ++ statements ++ after)).directoryDeployments fs file =
              (Model.mk before).directoryDeployments fs file ++
                (Model.mk after).directoryDeployments fs file := by
  intro replacements
  obtain ⟨before, s, after, hm, hof⟩ := exists_of_mem_directoryDeployments fs file hd
  have hfiles : ∀ r ∈ replacements, fs.isFile r.source = true :=
    fun r hr => DirectoryDeployment.isFile_of_mem_replacements hr
  have hdistinct : (replacements.map (·.target)).Nodup :=
    DirectoryDeployment.nodup_targets_replacements hfs d
  refine ⟨DirectoryDeployment.suggestions_eq hof hlines, hfiles, hdistinct, ?_⟩
  intro written hwritten statements
  obtain ⟨hpaths, hsources⟩ := Replacement.writes_all hwritten
  have hnone : (Model.mk statements).directoryDeployments fs file = [] := by
    unfold directoryDeployments
    rw [deployments_map_deployment, List.filterMap_eq_nil_iff]
    intro w hw
    obtain ⟨r, hr, hsource⟩ := hsources w hw
    exact DirectoryDeployment.ofStatement?_of_isFile hsource (hfiles r hr) file
  have hduplicates : (Model.mk statements).duplicatePaths = [] := by
    rw [duplicatePaths_eq_nil_iff, deployments_map_deployment, hpaths]
    exact hdistinct
  refine ⟨hnone, hduplicates, before, s, after, hm, hof, ?_, ?_⟩
  · obtain ⟨_⟩ := m
    obtain rfl := hm
    rw [directoryDeployments_append, directoryDeployments_cons fs file hof]
  · rw [directoryDeployments_append, directoryDeployments_append, hnone, List.append_nil]

/-! ## A directory with a file and a link to it -/

/-- A host on which two files were made in a directory, one of them as a link. -/
def linkedFiles : FileSystem :=
  { (FileSystem.bare ⟨["d"]⟩).changeAll [.file "x" (.text "") 1, .link "y" "x"] with
    workingDirectory := ⟨[]⟩ }

def linkedDirectory : Entry := .directory [("y", .link "x"), ("x", .file (.text "") 1)] 2

theorem linkedFiles_eq : linkedFiles =
    { root := .directory [("d", linkedDirectory)] 0, workingDirectory := ⟨[]⟩, clock := 3 } := by
  unfold linkedFiles
  rw [FileSystem.changeAll_file (by decide) rfl, FileSystem.changeAll_link (by decide) rfl rfl]
  rfl

theorem entry?_linkedFiles (names : List String) : linkedFiles.entry? ⟨names⟩ =
    (Entry.directory [("d", linkedDirectory)] 0).at? names := by
  rw [linkedFiles_eq]
  rfl

theorem find_linkedDirectory : linkedFiles.find "d" = .ok linkedDirectory :=
  FileSystem.find_of_at? (by decide) (entry?_linkedFiles []) rfl nofun

theorem find_linkedFile : linkedFiles.find "d/x" = .ok (.file (.text "") 1) :=
  FileSystem.find_of_at? (by decide) (entry?_linkedFiles []) rfl nofun

/-- The link leads to the file beside it. -/
theorem find_link : linkedFiles.find "d/y" = .ok (.file (.text "") 1) := by
  have hd : IsName "d" := by decide
  have hy : IsName "y" := by decide
  obtain ⟨there, hfile⟩ : ∃ there, linkedFiles.follow false 39 ⟨["d"]⟩ ["x"] =
      .ok (.found there (.file (.text "") 1)) :=
    FileSystem.follow_of_at? (by decide) (entry?_linkedFiles ["d"]) rfl nofun
  have hlink : linkedFiles.Passes "y" (39 + 1) ⟨["d"]⟩ 39
      (if isAbsolute "x" then ⟨[]⟩ else ⟨["d"]⟩) (pieces "x") :=
    FileSystem.passes_link hy.component?_eq hy.short (entry?_linkedFiles ["d", "y"])
  refine FileSystem.find_eq_ok_iff.mpr ⟨by decide, by decide, there, ?_⟩
  calc linkedFiles.follow false 40 ⟨[]⟩ ["d", "y"]
    _ = linkedFiles.follow false 40 ⟨["d"]⟩ ["y"] :=
      FileSystem.passes_directory hd.component?_eq hd.short (entry?_linkedFiles ["d"]) ["y"]
    _ = linkedFiles.follow false 39 ⟨["d"]⟩ ["x"] := hlink []
    _ = .ok (.found there (.file (.text "") 1)) := hfile

theorem filesBelow_linkedDirectory :
    linkedFiles.filesBelow "d" linkedDirectory = [["x"], ["y"]] := by
  have hleaves : linkedDirectory.leaves = [["y"], ["x"]] := rfl
  have hfiles : ∀ way ∈ [["y"], ["x"]],
      linkedFiles.isFile (FileSystem.below "d" way) = true := by
    have hy : FileSystem.below "d" ["y"] = "d/y" := rfl
    have hx : FileSystem.below "d" ["x"] = "d/x" := rfl
    simp [FileSystem.isFile, hx, hy, find_link, find_linkedFile, Entry.isFile]
  have hlater : decide (FileSystem.below "d" ["y"] ≤ FileSystem.below "d" ["x"]) = false := by
    decide
  unfold FileSystem.filesBelow
  rw [hleaves, List.filter_eq_self.mpr hfiles]
  simp [List.mergeSort, List.MergeSort.Internal.splitInTwo, hlater]

/-- A deployment of the directory that is also declared as one. -/
def copied : DeploymentStatement where
  path := "/opt"
  isAssignment := true
  attributeSection := some ⟨[.valued ⟨"type", "dir", none⟩], none⟩
  content := some (.path ⟨"d", none⟩)
  location := none

def copiedReport : DirectoryDeployment where
  targetPath := "/opt"
  sourcePath := "d"
  location := none
  warning := DirectoryDeployment.finding none copied "d"
  suggestions := some ["/opt/x = d/x", "/opt/y = d/y"]

theorem ofStatement?_copied :
    DirectoryDeployment.ofStatement? linkedFiles none copied = some copiedReport := by
  have hsuggested : DirectoryDeployment.suggest linkedFiles "/opt" "d" =
      some ["/opt/x = d/x", "/opt/y = d/y"] := by
    unfold DirectoryDeployment.suggest
    rw [find_linkedDirectory]
    show some ((linkedFiles.filesBelow "d" linkedDirectory).map _) = _
    rw [filesBelow_linkedDirectory]
    rfl
  have hpresent : linkedFiles.isPresent "d" = true := by
    rw [FileSystem.isPresent, find_linkedDirectory]
    rfl
  have hdirectory : linkedFiles.isDirectory "d" = true := by
    rw [FileSystem.isDirectory, find_linkedDirectory]
    rfl
  have hcopies : DirectoryDeployment.copiesDirectory linkedFiles copied "d" = true :=
    (if_pos hpresent).trans hdirectory
  have hsource : copied.sourcePath = some "d" := rfl
  unfold DirectoryDeployment.ofStatement?
  simp only [hsource, hcopies, if_true]
  exact congrArg (fun lines => some { copiedReport with suggestions := lines }) hsuggested

/-- The deployment that says what a suggestion says, with the attributes of the directory. -/
def writtenFor (r : Replacement) : DeploymentStatement :=
  { copied with path := r.target, content := some (.path ⟨r.source, none⟩) }

theorem suggestions_settle_the_report_linked :
    linkedFiles.root.WellNamed ∧
      copiedReport ∈ (Model.mk [.deployment copied]).directoryDeployments linkedFiles none ∧
      copiedReport.suggestions = some ["/opt/x = d/x", "/opt/y = d/y"] ∧
      ((Model.mk (((copiedReport.replacements linkedFiles).map writtenFor).map
        .deployment)).directoryDeployments linkedFiles none = [] ∧
      (Model.mk (((copiedReport.replacements linkedFiles).map writtenFor).map
        .deployment)).duplicatePaths = []) := by
  have hnamed : linkedFiles.root.WellNamed :=
    FileSystem.wellNamed_changeAll_bare (List.forall_mem_singleton.mpr (by decide)) _
  have hreports : (Model.mk [.deployment copied]).directoryDeployments linkedFiles none =
      [copiedReport] := by
    show List.filterMap _ [copied] = _
    rw [List.filterMap_cons_some ofStatement?_copied]
    rfl
  have hreport : copiedReport ∈
      (Model.mk [.deployment copied]).directoryDeployments linkedFiles none := by
    rw [hreports]
    exact List.mem_singleton_self _
  have hwritten : List.Forall₂ Replacement.Writes (copiedReport.replacements linkedFiles)
      ((copiedReport.replacements linkedFiles).map writtenFor) := by
    rw [List.forall₂_map_right_iff]
    exact List.forall₂_same.mpr fun r _ => ⟨rfl, rfl⟩
  obtain ⟨-, -, -, hsettled⟩ := suggestions_settle_the_report linkedFiles none hnamed
    ⟨[.deployment copied]⟩ copiedReport hreport _ rfl
  obtain ⟨hnone, hduplicates, -⟩ := hsettled _ hwritten
  exact ⟨hnamed, hreport, rfl, hnone, hduplicates⟩

end Model

end ImageLint
