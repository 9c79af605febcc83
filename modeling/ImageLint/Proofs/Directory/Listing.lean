import ImageLint.Proofs.Directory.Suggestion
import ImageLint.Proofs.Text.Bytes

/-!
# What is listed for a directory

The lines to write instead of a directory are told from the tree of the host: there is one for each
way down through directories that ends at a file, or at a link that leads to one.

* `mem_leaves_iff`: the ways down that are looked at.
* `FileSystem.mem_filesBelow_iff_lists`: the ways down that are listed.
* `FileSystem.pairwise_filesBelow`: the order of their paths.
* `DirectoryDeployment.suggest_lists_files`: the lines for every host, target and source.
-/

namespace ImageLint

namespace Host

/-! ## Ways to files -/

namespace Entry

def isLink : Entry → Bool
  | .link _ => true
  | _ => false

end Entry

theorem lookup_eq_some_iff_mem {entries : List (String × Entry)} (hn : (entries.map (·.1)).Nodup)
    {name : String} {e : Entry} : entries.lookup name = some e ↔ (name, e) ∈ entries := by
  rw [List.lookup_eq_some_iff]
  constructor
  · rintro ⟨before, after, rfl, -⟩
    simp
  · intro h
    obtain ⟨before, after, rfl⟩ := List.append_of_mem h
    refine ⟨before, after, rfl, fun p hp => ?_⟩
    rw [List.map_append, List.nodup_append] at hn
    obtain ⟨-, -, hapart⟩ := hn
    have hne : p.1 ≠ name := hapart p.1 (List.mem_map_of_mem hp) name (by simp)
    simpa using hne.symm

theorem leavesOf_eq_flatMap (entries : List (String × Entry)) :
    Entry.leavesOf entries = entries.flatMap fun p => p.2.leaves.map (p.1 :: ·) := by
  induction entries with
  | nil => rfl
  | cons p entries ih => rw [Entry.leavesOf, ih, List.flatMap_cons]

/-- A way down goes on from one of the names in a directory. -/
theorem mem_leaves_directory {entries : List (String × Entry)} {t : Int}
    (hn : (entries.map (·.1)).Nodup) {way : List String} :
    way ∈ (Entry.directory entries t).leaves ↔
      ∃ name down c, way = name :: down ∧ entries.lookup name = some c ∧ down ∈ c.leaves := by
  rw [Entry.leaves, leavesOf_eq_flatMap, List.mem_flatMap]
  simp only [List.mem_map, lookup_eq_some_iff_mem hn]
  constructor
  · rintro ⟨⟨name, c⟩, hmem, down, hdown, rfl⟩
    exact ⟨name, down, c, rfl, hmem, hdown⟩
  · rintro ⟨name, down, c, rfl, hmem, hdown⟩
    exact ⟨(name, c), hmem, down, hdown, rfl⟩

/-- The ways down are those of the tree to everything that is no directory. -/
theorem mem_leaves_iff {e : Entry} (h : e.WellNamed) {way : List String} :
    way ∈ e.leaves ↔ ∃ c, e.at? way = some c ∧ c.isDirectory = false := by
  induction way generalizing e with
  | nil =>
    cases e with
    | directory entries t => simp [mem_leaves_directory h.1, Entry.at?, Entry.isDirectory]
    | file content t => simp [Entry.leaves, Entry.at?, Entry.isDirectory]
    | link target => simp [Entry.leaves, Entry.at?, Entry.isDirectory]
  | cons name way ih =>
    cases e with
    | file content t => simp [Entry.leaves, Entry.at?, Entry.child?, Entry.entries]
    | link target => simp [Entry.leaves, Entry.at?, Entry.child?, Entry.entries]
    | directory entries t =>
      rw [mem_leaves_directory h.1, Entry.at?_cons]
      constructor
      · rintro ⟨_, _, c, ⟨⟩, hc, hdown⟩
        rw [hc]
        exact (ih (Entry.wellNamed_of_lookup h.2 hc)).mp hdown
      · rintro ⟨e, hat, he⟩
        obtain ⟨c, hc, hdown⟩ := Option.bind_eq_some_iff.mp hat
        exact ⟨name, way, c, rfl, hc,
          (ih (Entry.wellNamed_of_lookup h.2 hc)).mpr ⟨e, hdown, he⟩⟩

/-! ## Paths of files -/

theorem join_cons (name : String) (way : List String) :
    ∃ more, Text.join "/" (name :: way) = name ++ more := by
  cases way with
  | nil => exact ⟨"", String.append_empty.symm⟩
  | cons next way => exact ⟨_, String.append_assoc ..⟩

/-- What is below a directory on the host is written beneath it. -/
theorem below_eq_beneath {source : String} (hsource : source ≠ "") {way : List String}
    (hne : way ≠ []) (hway : ∀ name ∈ way, IsName name) :
    FileSystem.below source way = beneath source way := by
  have hrelative : isAbsolute (Text.join "/" way) = false := by
    obtain ⟨name, way, rfl⟩ := List.exists_cons_of_ne_nil hne
    have hname : IsName name := hway name List.mem_cons_self
    obtain ⟨more, hmore⟩ := join_cons name way
    rw [hmore, isAbsolute_append hname.nonempty]
    exact decide_eq_false fun h => hname.slashless (List.mem_of_head? h)
  unfold FileSystem.below join beneath
  by_cases hslash : source.toList.getLast? = some '/' <;> simp [hrelative, hsource, hslash]

theorem beneath_injective {place : String} {a b : List String} (ha : a ≠ []) (hb : b ≠ [])
    (hsa : Slashless a) (hsb : Slashless b) (h : beneath place a = beneath place b) : a = b :=
  Text.join_slash_injective ha hb hsa hsb ((String.append_right_inj _).mp h)

namespace FileSystem

variable {fs : FileSystem}

/-- The way down from a directory ends at a file, or at a link with which its path leads to one. -/
def Lists (fs : FileSystem) (source : String) (d : Entry) (way : List String) : Prop :=
  ∃ e, d.at? way = some e ∧
    (e.isFile = true ∨ e.isLink = true ∧ fs.isFile (beneath source way) = true)

section Directory

variable (hfs : fs.Lawful) {source : String} {entries : List (String × Entry)} {t : Int}
  (hfind : fs.find source = .ok (.directory entries t))

include hfs hfind

theorem wellNamed_of_find : (Entry.directory entries t).WellNamed := by
  obtain ⟨there, hthere⟩ := entry?_of_find hfind
  exact Entry.wellNamed_at? hfs.wellNamed hthere

theorem beneath_of_mem_leaves {way : List String} (h : way ∈ (Entry.directory entries t).leaves) :
    way ≠ [] ∧ Slashless way ∧ FileSystem.below source way = beneath source way := by
  obtain ⟨e, hat, he⟩ := (mem_leaves_iff (wellNamed_of_find hfs hfind)).mp h
  have hne : way ≠ [] := by
    rintro rfl
    cases hat
    cases he
  have hnames : ∀ name ∈ way, IsName name := hfs.isName_of_find hfind hat
  exact ⟨hne, fun name hname => (hnames name hname).slashless,
    below_eq_beneath (find_eq_ok_iff.mp hfind).1 hne hnames⟩

theorem mem_filesBelow_iff_lists {way : List String} :
    way ∈ fs.filesBelow source (.directory entries t) ↔
      fs.Lists source (.directory entries t) way := by
  have hnamed := wellNamed_of_find hfs hfind
  rw [DirectoryDeployment.mem_filesBelow_iff]
  constructor
  · rintro ⟨hleaf, hfile⟩
    rw [(beneath_of_mem_leaves hfs hfind hleaf).2.2] at hfile
    obtain ⟨e, hat, he⟩ := (mem_leaves_iff hnamed).mp hleaf
    cases e with
    | file content t => exact ⟨_, hat, Or.inl rfl⟩
    | link target => exact ⟨_, hat, Or.inr ⟨rfl, hfile⟩⟩
    | directory entries t => cases he
  · rintro ⟨e, hat, hend⟩
    have he : e.isDirectory = false := by
      cases e with
      | file content t => rfl
      | link target => rfl
      | directory entries t => exact absurd hend (by simp [Entry.isFile, Entry.isLink])
    have hleaf : way ∈ (Entry.directory entries t).leaves := (mem_leaves_iff hnamed).mpr ⟨e, hat, he⟩
    obtain ⟨hne, -, hbelow⟩ := beneath_of_mem_leaves hfs hfind hleaf
    refine ⟨hleaf, hbelow ▸ ?_⟩
    rcases hend with hfile | ⟨-, hfile⟩
    · -- A file stays where the tree has it, however the path comes to the directory.
      have hlink : ∀ target, e ≠ .link target := by
        rintro target rfl
        cases hfile
      unfold isFile
      rw [find_beneath hfs hfind rfl hne hat hlink]
      exact hfile
    · exact hfile

theorem pairwise_filesBelow : (fs.filesBelow source (.directory entries t)).Pairwise fun a b =>
    Text.bytes (beneath source a) < Text.bytes (beneath source b) := by
  have hsorted : (fs.filesBelow source (.directory entries t)).Pairwise fun a b =>
      FileSystem.below source a ≤ FileSystem.below source b := by
    refine (List.pairwise_mergeSort ?_ ?_ _).imp of_decide_eq_true
    · intro a b c hab hbc
      exact decide_eq_true (String.le_trans (of_decide_eq_true hab) (of_decide_eq_true hbc))
    · intro a b
      simpa using String.le_total _ _
  have hdistinct : (fs.filesBelow source (.directory entries t)).Pairwise (· ≠ ·) :=
    DirectoryDeployment.nodup_filesBelow (wellNamed_of_find hfs hfind) source
  refine (hsorted.and hdistinct).imp_of_mem fun {a b} ha hb h => ?_
  obtain ⟨hane, haslash, habelow⟩ :=
    beneath_of_mem_leaves hfs hfind (DirectoryDeployment.mem_filesBelow_iff.mp ha).1
  obtain ⟨hbne, hbslash, hbbelow⟩ :=
    beneath_of_mem_leaves hfs hfind (DirectoryDeployment.mem_filesBelow_iff.mp hb).1
  obtain ⟨hle, hne⟩ := h
  rw [habelow, hbbelow] at hle
  rw [Text.bytes_lt_bytes_iff]
  by_contra hlt
  have heq : beneath source a = beneath source b := String.le_antisymm hle (String.not_lt.mp hlt)
  exact hne (beneath_injective hane hbne haslash hbslash heq)

end Directory

end FileSystem

end Host

namespace DirectoryDeployment

open Host

/-! ## Lines -/

variable {fs : FileSystem}

/-- The line for a way down from the source: where it goes, and where it comes from. -/
def lineFor (target source : String) (way : List String) : String :=
  beneath target way ++ " = " ++ beneath source way

theorem line_eq_lineFor {source : String} {way : List String}
    (h : FileSystem.below source way = beneath source way) (target : String) :
    line target source way = lineFor target source way := by
  unfold line lineFor
  rw [h]
  rfl

/-- A line tells the path of the host that it is about. -/
theorem beneath_eq_of_lineFor_eq {target source : String} {a b : List String}
    (h : lineFor target source a = lineFor target source b) : beneath source a = beneath source b := by
  have hlist := congrArg String.toList h
  unfold lineFor beneath at hlist
  simp only [String.toList_append, List.append_assoc, List.append_right_inj] at hlist
  -- The way stands in both halves of a line, so lines of one length have ways of one length.
  have hlength : (Text.join "/" a).toList.length = (Text.join "/" b).toList.length := by
    have htotal := congrArg List.length hlist
    simp only [List.length_append] at htotal
    omega
  unfold beneath
  rw [String.toList_inj.mp (List.append_inj hlist hlength).1]

/-- **The lines that are suggested for a directory**, for every host, target and source. There are
lines exactly if the source leads to a directory. Then each way down from it, through directories of
the tree to a file or to a link with which the path leads to a file, has one line, and nothing else
has. The line joins the way to the target and to the source, each time with one slash also where they
end with one. The lines stand in the order of the bytes of their paths on the host, and no line comes
twice. -/
theorem suggest_lists_files (hfs : fs.Lawful) (target source : String) :
    (suggest fs target source = none ↔ fs.isDirectory source = false) ∧
      ∀ d, fs.find source = .ok d → d.isDirectory = true →
        ∃ ways : List (List String),
          suggest fs target source = some (ways.map (lineFor target source)) ∧
          (∀ way, way ∈ ways ↔ fs.Lists source d way) ∧
          (ways.Pairwise fun a b =>
            Text.bytes (beneath source a) < Text.bytes (beneath source b)) ∧
          (ways.map (lineFor target source)).Nodup := by
  constructor
  · unfold suggest FileSystem.isDirectory
    cases fs.find source with
    | error e => simp
    | ok d => cases d <;> simp [Entry.isDirectory]
  · intro d hfind hd
    cases d with
    | file content t => cases hd
    | link target => cases hd
    | directory entries t =>
      have hways := FileSystem.pairwise_filesBelow hfs hfind
      refine ⟨fs.filesBelow source (.directory entries t), ?_,
        fun way => FileSystem.mem_filesBelow_iff_lists hfs hfind, hways, ?_⟩
      · unfold suggest
        rw [hfind]
        refine congrArg some (List.map_congr_left fun way hway => ?_)
        exact line_eq_lineFor
          (FileSystem.beneath_of_mem_leaves hfs hfind (mem_filesBelow_iff.mp hway).1).2.2 target
      · refine List.pairwise_map.mpr (hways.imp fun {a b} hlt hline => ?_)
        rw [beneath_eq_of_lineFor_eq hline] at hlt
        exact List.lt_irrefl _ hlt

/-! ## A directory with files and links -/

/-- The directory that is copied. Its name `a.txt` comes before everything below its name `a`. -/
def mixedDirectory : Entry := .directory [
  ("turn", .link "turn"),
  ("l", .link "a/b"),
  ("gone", .link "nowhere"),
  ("a.txt", .file (.text "") 1),
  ("a", .directory [("b", .file (.text "") 1), ("up", .link "..")] 2)] 6

def mixedHost : FileSystem where
  root := .directory [("src", mixedDirectory)] 0
  workingDirectory := ⟨[]⟩
  clock := 7

/-- The directory below the copied one is filled first. -/
def innerHost : FileSystem :=
  (FileSystem.bare ⟨["src", "a"]⟩).changeAll [.link "up" "..", .file "b" (.text "") 1]

/-- Then the work goes on in the copied one. -/
def outerHost : FileSystem := { innerHost with workingDirectory := ⟨["src"]⟩ }

theorem innerHost_eq : innerHost =
    { root := .directory [("src", .directory [("a", .directory
        [("b", .file (.text "") 1), ("up", .link "..")] 2)] 0)] 0
      workingDirectory := ⟨["src", "a"]⟩
      clock := 3 } := by
  unfold innerHost
  rw [FileSystem.changeAll_link (by decide) rfl rfl, FileSystem.changeAll_file (by decide) rfl]
  rfl

/-- The tree is made by changes. -/
theorem root_mixedHost : mixedHost.root = (outerHost.changeAll [.file "a.txt" (.text "") 1,
    .link "gone" "nowhere", .link "l" "a/b", .link "turn" "turn"]).root := by
  unfold outerHost
  rw [innerHost_eq, FileSystem.changeAll_file (by decide) rfl,
    FileSystem.changeAll_link (by decide) rfl rfl, FileSystem.changeAll_link (by decide) rfl rfl,
    FileSystem.changeAll_link (by decide) rfl rfl]
  rfl

theorem lawful_mixedHost : mixedHost.Lawful := by
  have hinner : innerHost.root.WellNamed :=
    FileSystem.wellNamed_changeAll_bare (by unfold Slashless; decide) _
  have houter : outerHost.root.WellNamed := hinner
  constructor
  · rw [root_mixedHost]
    exact FileSystem.wellNamed_changeAll houter _
  · decide

theorem passes_src : mixedHost.Passes "src" 40 ⟨[]⟩ 40 ⟨["src"]⟩ [] := by
  have hname : IsName "src" := lawful_mixedHost.isName "src" (by decide)
  exact FileSystem.passes_directory hname.component?_eq hname.short rfl

theorem find_mixedDirectory : mixedHost.find "src/" = .ok mixedDirectory := by
  refine FileSystem.find_eq_ok_iff.mpr ⟨by decide, by decide, ⟨["src"]⟩, ?_⟩
  calc mixedHost.follow false 40 ⟨[]⟩ ["src", ""]
    _ = mixedHost.follow false 40 ⟨["src"]⟩ [""] := passes_src [""]
    _ = mixedHost.follow false 40 ⟨["src"]⟩ [] := FileSystem.passes_silent rfl []
    _ = .ok (.found ⟨["src"]⟩ mixedDirectory) := FileSystem.follow_nil rfl

/-- The link is followed from the directory that it lies in. -/
theorem find_mixedLink : mixedHost.find "src/l" = .ok (.file (.text "") 1) := by
  have hnames : ∀ name ∈ ["l", "a", "b"], IsName name := fun name hname =>
    lawful_mixedHost.isName name ((by decide : ["l", "a", "b"] ⊆ mixedHost.root.names) hname)
  have hl : IsName "l" := hnames "l" List.mem_cons_self
  have hentry : mixedHost.entry? (NormalPath.step ⟨["src"]⟩ (.normal "l")) = some (.link "a/b") :=
    rfl
  have htarget : mixedHost.Passes "l" (39 + 1) ⟨["src"]⟩ 39
      (if isAbsolute "a/b" then ⟨[]⟩ else ⟨["src"]⟩) (pieces "a/b") :=
    FileSystem.passes_link hl.component?_eq hl.short hentry
  have hsrc : mixedHost.entry? ⟨["src"]⟩ = some mixedDirectory := rfl
  obtain ⟨there, hfile⟩ : ∃ there, mixedHost.follow false 39 ⟨["src"]⟩ ["a", "b"] =
      .ok (.found there (.file (.text "") 1)) :=
    FileSystem.follow_of_at? (fun name hname => hnames name (List.mem_cons_of_mem _ hname)) hsrc rfl
      nofun
  refine FileSystem.find_eq_ok_iff.mpr ⟨by decide, by decide, there, ?_⟩
  calc mixedHost.follow false 40 ⟨[]⟩ ["src", "l"]
    _ = mixedHost.follow false 40 ⟨["src"]⟩ ["l"] := passes_src ["l"]
    _ = mixedHost.follow false 39 ⟨["src"]⟩ ["a", "b"] := htarget []
    _ = .ok (.found there (.file (.text "") 1)) := hfile

theorem suggest_lists_files_mixed :
    mixedHost.Lawful ∧ mixedHost.find "src/" = .ok mixedDirectory ∧
      ∃ lines, suggest mixedHost "/opt" "src/" = some lines ∧ lines.Nodup ∧
        "/opt/a/b = src/a/b" ∈ lines ∧ "/opt/l = src/l" ∈ lines := by
  have hfile : mixedHost.Lists "src/" mixedDirectory ["a", "b"] := ⟨_, rfl, Or.inl rfl⟩
  have hlink : mixedHost.Lists "src/" mixedDirectory ["l"] := by
    refine ⟨_, rfl, Or.inr ⟨rfl, ?_⟩⟩
    have hplace : beneath "src/" ["l"] = "src/l" := by rfl
    rw [hplace, FileSystem.isFile, find_mixedLink]
    rfl
  obtain ⟨ways, hlines, hways, -, hnodup⟩ :=
    (suggest_lists_files lawful_mixedHost "/opt" "src/").2 mixedDirectory find_mixedDirectory rfl
  refine ⟨lawful_mixedHost, find_mixedDirectory, _, hlines, hnodup, ?_, ?_⟩
  · exact List.mem_map.mpr ⟨["a", "b"], (hways _).mpr hfile, by rfl⟩
  · exact List.mem_map.mpr ⟨["l"], (hways _).mpr hlink, by rfl⟩

end DirectoryDeployment

end ImageLint
