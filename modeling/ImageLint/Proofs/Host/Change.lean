import ImageLint.Host.Change
import ImageLint.Proofs.Host.Resolution

/-!
# Changes keep names in order

What is made on a host gets its name from a piece of a path, and a piece of a path holds no slash.
A name that is given twice replaces the entry. So every change keeps the names of the tree as they
must be, and every host that changes make of a bare one has such names.

* `Entry.wellNamed_alter`: the one way in which a tree is changed.
* `FileSystem.wellNamed_change`: every change of the host.
* `FileSystem.changeAll_file`, `FileSystem.changeAll_link`: what a new name in the working directory
  does to the tree.
* `FileSystem.wellNamed_changeAll_bare`: every host that is made by changes.
-/

namespace ImageLint.Host

namespace Entry

theorem allWellNamed_iff {entries : List (String × Entry)} :
    AllWellNamed entries ↔ ∀ p ∈ entries, '/' ∉ p.1.toList ∧ p.2.WellNamed := by
  induction entries with
  | nil => simp [AllWellNamed]
  | cons p entries ih => simp [AllWellNamed, ih, and_assoc]

theorem wellNamed_directory {entries : List (String × Entry)} {t : Int} :
    (directory entries t).WellNamed ↔ (entries.map (·.1)).Nodup ∧
      ∀ p ∈ entries, '/' ∉ p.1.toList ∧ p.2.WellNamed := by
  rw [WellNamed, allWellNamed_iff]

variable {entries : List (String × Entry)} {t time : Int} {name : String} {e : Entry}

theorem wellNamed_erase (h : (directory entries t).WellNamed) :
    (directory (Association.erase name entries) time).WellNamed := by
  obtain ⟨once, all⟩ := wellNamed_directory.mp h
  have kept : (Association.erase name entries).Sublist entries := List.filter_sublist
  exact wellNamed_directory.mpr
    ⟨(kept.map _).nodup once, fun p hp => all p (kept.subset hp)⟩

theorem wellNamed_set (h : (directory entries t).WellNamed) (slash : '/' ∉ name.toList)
    (he : e.WellNamed) : (directory (Association.set name e entries) time).WellNamed := by
  have erased : (directory (Association.erase name entries) t).WellNamed := wellNamed_erase h
  obtain ⟨once, all⟩ := wellNamed_directory.mp erased
  have new : name ∉ (Association.erase name entries).map (·.1) := fun hmem =>
    ((Association.mem_keys_erase name entries name).mp hmem).2 rfl
  refine wellNamed_directory.mpr ⟨List.nodup_cons.mpr ⟨new, once⟩, fun p hp => ?_⟩
  rcases List.mem_cons.mp hp with rfl | hp
  · exact ⟨slash, he⟩
  · exact all p hp

/-- A name that stands for something in a directory holds no slash. -/
theorem not_mem_of_lookup (h : (directory entries t).WellNamed)
    (hl : entries.lookup name = some e) : '/' ∉ name.toList := by
  obtain ⟨-, all⟩ := wellNamed_directory.mp h
  obtain ⟨before, after, rfl, -⟩ := List.lookup_eq_some_iff.mp hl
  exact (all (name, e) (by simp)).1

/-- Replacing or removing an entry keeps the names in order, if the name of a new one does. -/
theorem wellNamed_alter {new : Option Entry} {names : List String} {e : Entry}
    (h : e.WellNamed) (hnew : ∀ n ∈ new, n.WellNamed)
    (slash : e.at? names = none → ∀ name ∈ names.getLast?, '/' ∉ name.toList) :
    (alter time new names e).WellNamed := by
  fun_induction alter time new names e with
  | case1 e =>
    cases new with
    | none => exact h
    | some n => exact hnew n rfl
  | case2 name entries t _ n hsome hl =>
    exact wellNamed_set h (not_mem_of_lookup h hl) (hnew n hsome)
  | case3 name entries t n hsome hl =>
    have absent : (directory entries t).at? [name] = none := by rw [at?_cons, hl, Option.bind_none]
    exact wellNamed_set h (slash absent name rfl) (hnew n hsome)
  | case4 => exact wellNamed_erase h
  | case6 name rest entries t hrest e hl ih =>
    have below := wellNamed_of_lookup h.2 hl
    refine wellNamed_set h (not_mem_of_lookup h hl) (ih below fun absent last hlast => ?_)
    refine slash (by rw [at?_cons, hl, Option.bind_some, absent]) last ?_
    rwa [List.getLast?_cons_of_ne_nil hrest]
  | case5 | case7 | case8 => exact h

theorem wellNamed_withTime (h : e.WellNamed) (t : Int) : (e.withTime t).WellNamed := by
  cases e <;> exact h

end Entry

/-! ## Names out of paths -/

theorem mem_of_mem_dropEmpty {ps : List String} {p : String} (h : p ∈ dropEmpty ps) : p ∈ ps := by
  fun_induction dropEmpty ps with
  | case1 => exact h
  | case2 q => exact h
  | case3 q rest _ r hr _ ih =>
    rw [List.mem_singleton.mp h]
    exact List.mem_cons_self
  | case4 q rest _ r hr _ ih =>
    rcases List.mem_cons.mp h with rfl | h
    · exact List.mem_cons_self
    · exact List.mem_cons_of_mem q (ih (hr ▸ h))
  | case5 q rest _ _ ih =>
    rcases List.mem_cons.mp h with rfl | h
    · exact List.mem_cons_self
    · exact List.mem_cons_of_mem q (ih h)

namespace FileSystem

variable {fs fs' : FileSystem}

/-- The name of what is missing at the end of a way is a piece of the way or of a link. -/
theorem not_mem_of_follow_absent {toWrite : Bool} {links : Nat} {here there : NormalPath}
    {todo : List String} {name : String}
    (h : fs.follow toWrite links here todo = .ok (.absent there name)) (ht : Slashless todo) :
    '/' ∉ name.toList := by
  fun_induction follow fs toWrite links here todo with
  | case3 links here piece rest hp ih => exact ih h fun p hp => ht p (List.mem_cons_of_mem piece hp)
  | case4 links here piece rest hp ih => exact ih h fun p hp => ht p (List.mem_cons_of_mem piece hp)
  | case7 links here piece rest own hp =>
    obtain ⟨-, rfl⟩ := Place.absent.inj (Except.ok.inj h)
    rw [eq_of_component? hp]
    exact ht piece List.mem_cons_self
  | case9 links here piece =>
    rename_i ih
    exact ih h fun p hp => ht p (List.mem_cons_of_mem piece hp)
  | case13 here piece rest own _ _ _ _ target _ links ih =>
    refine ih h fun p hp => ?_
    rcases List.mem_append.mp hp with hp | hp
    · exact slashless_pieces target p hp
    · exact ht p (List.mem_cons_of_mem piece hp)
  | case14 links here piece =>
    rename_i ih
    exact ih h fun p hp => ht p (List.mem_cons_of_mem piece hp)
  | case1 | case2 | case5 | case6 | case8 | case10 | case11 | case12 => cases h

theorem not_mem_of_resolve_absent {toWrite : Bool} {path name : String} {there : NormalPath}
    (h : fs.resolve toWrite path = .ok (.absent there name)) : '/' ∉ name.toList := by
  unfold resolve at h
  split at h
  · cases h
  · split at h
    · cases h
    · exact not_mem_of_follow_absent h (slashless_pieces path)

/-! ## Changes -/

/-- Something new gets a name without a slash. -/
theorem wellNamed_alter_step (h : fs.root.WellNamed) {here : NormalPath} {name : String}
    (slash : '/' ∉ name.toList) {new : Option Entry} (hnew : ∀ n ∈ new, n.WellNamed) :
    (fs.alter (here.step (.normal name)) new).root.WellNamed := by
  refine Entry.wellNamed_alter h hnew fun _ last hlast => ?_
  have same : (here.names ++ [name]).getLast? = some name := List.getLast?_concat
  cases same.symm.trans hlast
  exact slash

/-- What is there already keeps its name. -/
theorem wellNamed_alter_found (h : fs.root.WellNamed) {there : NormalPath} {e n : Entry}
    (found : fs.entry? there = some e) (hn : n.WellNamed) (time : Int) :
    (fs.root.alter time (some n) there.names).WellNamed := by
  refine Entry.wellNamed_alter h (fun m hm => ?_) fun absent => ?_
  · cases hm
    exact hn
  · cases found.symm.trans absent

theorem wellNamed_makeDirectory {path : String} (h : fs.root.WellNamed)
    (made : fs.makeDirectory path = .ok fs') : fs'.root.WellNamed := by
  unfold makeDirectory at made
  split at made
  · cases made
    exact h
  · cases made
  · next here name absent =>
    cases made
    refine wellNamed_alter_step h (not_mem_of_resolve_absent absent) fun n hn => ?_
    cases hn
    exact Entry.wellNamed_directory.mpr ⟨List.nodup_nil, nofun⟩
  · cases made

theorem wellNamed_makeDirectories {path : String} (h : fs.root.WellNamed)
    (made : fs.makeDirectories path = .ok fs') : fs'.root.WellNamed := by
  unfold makeDirectories at made
  generalize stages path = ps at made
  induction ps generalizing fs with
  | nil =>
    cases made
    exact h
  | cons p ps ih =>
    rw [List.foldlM_cons] at made
    cases first : fs.makeDirectory p with
    | error e =>
      rw [first] at made
      cases made
    | ok fs₁ =>
      rw [first] at made
      exact ih (wellNamed_makeDirectory h first) made

theorem wellNamed_makeParents {path : String} (h : fs.root.WellNamed)
    (made : fs.makeParents path = .ok fs') : fs'.root.WellNamed := by
  unfold makeParents at made
  split at made
  · cases made
    exact h
  · cases made
    exact h
  · exact wellNamed_makeDirectories h made

theorem wellNamed_writeFile {path : String} {content : FileContent} {modified : Int}
    (h : fs.root.WellNamed) (made : fs.writeFile path content modified = .ok fs') :
    fs'.root.WellNamed := by
  have file : (Entry.file content modified).WellNamed := trivial
  unfold writeFile at made
  split at made
  · next there _ _ found =>
    cases made
    exact wellNamed_alter_found h (entry?_of_resolve found) file fs.clock
  · cases made
  · next here name absent =>
    cases made
    refine wellNamed_alter_step h (not_mem_of_resolve_absent absent) fun n hn => ?_
    cases hn
    exact file
  · cases made

theorem wellNamed_setModified {path : String} {modified : Int} (h : fs.root.WellNamed)
    (made : fs.setModified path modified = .ok fs') : fs'.root.WellNamed := by
  unfold setModified at made
  split at made
  · next there e found =>
    cases made
    have there' := entry?_of_resolve found
    have old : e.WellNamed := Entry.wellNamed_at? h there'
    exact wellNamed_alter_found h there' (Entry.wellNamed_withTime old modified) 0
  · cases made
  · cases made

theorem not_mem_of_locateName {path name : String} {p : NormalPath}
    (h : fs.locateName path = .ok (p, name)) : '/' ∉ name.toList := by
  simp only [locateName, bind, Except.bind] at h
  split at h
  · cases h
  · next last hlast =>
    have piece : last ∈ pieces path := mem_of_mem_dropEmpty (List.mem_of_getLast? hlast)
    split at h
    · cases h
    · split at h
      · cases h
      · split at h
        · obtain ⟨-, rfl⟩ := Prod.mk.inj (Except.ok.inj h)
          exact slashless_pieces path last piece
        · cases h

theorem wellNamed_makeLink {path target : String} (h : fs.root.WellNamed)
    (made : fs.makeLink path target = .ok fs') : fs'.root.WellNamed := by
  simp only [makeLink, bind, Except.bind] at made
  split at made
  · cases made
  · next place located =>
    split at made
    · cases made
    · cases made
      refine wellNamed_alter_step h (not_mem_of_locateName located) fun n hn => ?_
      cases hn
      trivial

theorem wellNamed_removeFile {path : String} (h : fs.root.WellNamed)
    (made : fs.removeFile path = .ok fs') : fs'.root.WellNamed := by
  simp only [removeFile, bind, Except.bind] at made
  split at made
  · cases made
  · next place located =>
    have removed : (fs.alter (place.1.step (.normal place.2)) none).root.WellNamed :=
      wellNamed_alter_step h (not_mem_of_locateName located) nofun
    split at made
    · cases made
    · cases made
    · split at made
      · cases made
      · cases made
        exact removed
    · split at made
      · cases made
      · cases made
        exact removed

theorem wellNamed_change {c : Change} (h : fs.root.WellNamed) (made : fs.change c = .ok fs') :
    fs'.root.WellNamed := by
  cases c with
  | directory path => exact wellNamed_makeDirectories h made
  | time path modified => exact wellNamed_setModified h made
  | removal path => exact wellNamed_removeFile h made
  | file path content modified =>
    cases parents : fs.makeParents path with
    | error e =>
      simp only [change, parents] at made
      cases made
    | ok fs₁ =>
      simp only [change, parents] at made
      exact wellNamed_writeFile (wellNamed_makeParents h parents) made
  | link path target =>
    cases parents : fs.makeParents path with
    | error e =>
      simp only [change, parents] at made
      cases made
    | ok fs₁ =>
      simp only [change, parents] at made
      exact wellNamed_makeLink (wellNamed_makeParents h parents) made

/-! ## Something new in the working directory -/

theorem makeParents_of_isName {name : String} (h : IsName name) : fs.makeParents name = .ok fs := by
  unfold makeParents parent?
  rw [pieces_of_isName h]
  simp [dropEmpty, h.nonempty]

theorem changeAll_cons_of_ok {c : Change} (made : fs.change c = .ok fs') (changes : List Change) :
    fs.changeAll (c :: changes) = fs'.changeAll changes := by
  unfold changeAll
  rw [List.foldl_cons, made]
  rfl

theorem changeAll_file {name : String} (h : IsName name)
    (absent : fs.entry? (fs.workingDirectory.step (.normal name)) = none) (content : FileContent)
    (modified : Int) (changes : List Change) :
    fs.changeAll (.file name content modified :: changes) =
      (fs.alter (fs.workingDirectory.step (.normal name))
        (some (.file content modified))).changeAll changes := by
  refine changeAll_cons_of_ok ?_ changes
  simp only [change, makeParents_of_isName h, bind, Except.bind]
  unfold writeFile
  rw [resolve_of_isName h absent]

theorem changeAll_link {name : String} (h : IsName name) {entries : List (String × Entry)}
    {t : Int} (here : fs.entry? fs.workingDirectory = some (.directory entries t))
    (absent : fs.entry? (fs.workingDirectory.step (.normal name)) = none) (target : String)
    (changes : List Change) :
    fs.changeAll (.link name target :: changes) =
      (fs.alter (fs.workingDirectory.step (.normal name)) (some (.link target))).changeAll
        changes := by
  have hplace : fs.locateName name = .ok (fs.workingDirectory, name) := by
    simp [locateName, pieces_of_isName h, dropEmpty, h.component?_eq, h.not_dots,
      origin_of_isName h, follow_nil here, bind, Except.bind, pure, Except.pure]
  refine changeAll_cons_of_ok ?_ changes
  simp only [change, makeParents_of_isName h, makeLink, hplace, absent, bind, Except.bind, pure,
    Except.pure]

/-! ## Runs of changes -/

/-- Changes keep the names of the tree in order, also where one cannot be made. -/
theorem wellNamed_changeAll (h : fs.root.WellNamed) (changes : List Change) :
    (fs.changeAll changes).root.WellNamed := by
  unfold changeAll
  induction changes generalizing fs with
  | nil => exact h
  | cons c changes ih =>
    have next : ((fs.change c).toOption.getD fs).root.WellNamed := by
      cases made : fs.change c with
      | error e => exact h
      | ok fs₁ => exact wellNamed_change h made
    exact ih next

/-- A bare host has its names in order, if those of the working directory are. -/
theorem wellNamed_bare {here : NormalPath} (h : Slashless here.names) :
    (bare here).root.WellNamed := by
  obtain ⟨names⟩ := here
  unfold bare
  induction names with
  | nil => exact Entry.wellNamed_directory.mpr ⟨List.nodup_nil, nofun⟩
  | cons name names ih =>
    refine Entry.wellNamed_directory.mpr ⟨List.nodup_singleton _, fun p hp => ?_⟩
    cases List.mem_singleton.mp hp
    exact ⟨h name List.mem_cons_self, ih fun p hp => h p (List.mem_cons_of_mem name hp)⟩

/-- Every host that changes make of a bare one has its names in order. -/
theorem wellNamed_changeAll_bare {here : NormalPath} (h : Slashless here.names)
    (changes : List Change) : ((bare here).changeAll changes).root.WellNamed :=
  wellNamed_changeAll (wellNamed_bare h) changes

end FileSystem

end ImageLint.Host
