import ImageLint.Proofs.Host.Tree

/-!
# Following a path into a directory

The host follows the path of a file below a directory by following the path of the directory first,
through whatever links it leads, and then the names of the way down. Where there are no links on the
way down, it ends at the entry that the tree has there.

* `IsName`: the names that entries can have.
* `FileSystem.follow_append`: a path that goes on behind a directory.
* `FileSystem.find_beneath`: what a path below a directory leads to.
* `FileSystem.find_of_at?`: what a path of names leads to.
-/

namespace ImageLint.Host

/-! ## Names -/

/-- Pieces without a slash. -/
def Slashless (ps : List String) : Prop := ∀ p ∈ ps, '/' ∉ p.toList

theorem slashless_pieces (path : String) : Slashless (pieces path) := by
  intro piece h
  obtain ⟨cs, hcs, rfl⟩ := List.mem_map.mp h
  rw [String.toList_ofList]
  exact Text.not_mem_of_mem_splitAt hcs

theorem eq_of_component? {piece name : String} (h : component? piece = some (.normal name)) :
    name = piece := by
  unfold component? at h
  split at h
  · cases h
  · split at h
    · cases h
    · exact (Component.normal.inj (Option.some.inj h)).symm

/-- A piece of a path that is a name: not empty, no dots of the two kinds, and without a slash. -/
structure Ordinary (name : String) : Prop where
  nonempty : name ≠ ""
  not_dot : name ≠ "."
  not_dots : name ≠ ".."
  slashless : '/' ∉ name.toList

theorem Ordinary.component?_eq {name : String} (h : Ordinary name) :
    component? name = some (.normal name) := by
  unfold component?
  rw [if_neg (by simp [h.nonempty, h.not_dot]), if_neg h.not_dots]

/-- A name that the host can give to an entry. -/
structure IsName (name : String) : Prop where
  nonempty : name ≠ ""
  not_dot : name ≠ "."
  not_dots : name ≠ ".."
  slashless : '/' ∉ name.toList
  zeroless : '\x00' ∉ name.toList
  short : name.utf8ByteSize ≤ FileSystem.maxName

theorem IsName.component?_eq {name : String} (h : IsName name) :
    component? name = some (.normal name) :=
  Ordinary.component?_eq ⟨h.nonempty, h.not_dot, h.not_dots, h.slashless⟩

instance (name : String) : Decidable (IsName name) :=
  decidable_of_iff (name ≠ "" ∧ name ≠ "." ∧ name ≠ ".." ∧ '/' ∉ name.toList ∧
      '\x00' ∉ name.toList ∧ name.utf8ByteSize ≤ FileSystem.maxName)
    ⟨fun ⟨h₁, h₂, h₃, h₄, h₅, h₆⟩ => ⟨h₁, h₂, h₃, h₄, h₅, h₆⟩,
      fun ⟨h₁, h₂, h₃, h₄, h₅, h₆⟩ => ⟨h₁, h₂, h₃, h₄, h₅, h₆⟩⟩

mutual

/-- The names in a tree. -/
def Entry.names : Entry → List String
  | .directory entries _ => Entry.namesOf entries
  | _ => []

def Entry.namesOf : List (String × Entry) → List String
  | [] => []
  | (name, e) :: rest => name :: (e.names ++ Entry.namesOf rest)

end

/-- A host as it can be: in every directory the names are different, and each is one that the host can
give. -/
structure FileSystem.Lawful (fs : FileSystem) : Prop where
  wellNamed : fs.root.WellNamed
  isName : ∀ name ∈ fs.root.names, IsName name

namespace Entry

theorem at?_cons (entries : List (String × Entry)) (t : Int) (name : String)
    (rest : List String) : (directory entries t).at? (name :: rest) =
      (entries.lookup name).bind (·.at? rest) := by
  simp only [at?, child?, Entry.entries]
  cases entries.lookup name <;> rfl

theorem names_of_lookup {entries : List (String × Entry)} {name : String} {e : Entry}
    (h : entries.lookup name = some e) : name ∈ namesOf entries ∧ e.names ⊆ namesOf entries := by
  induction entries with
  | nil => cases h
  | cons p entries ih =>
    obtain ⟨own, c⟩ := p
    rw [List.lookup_cons] at h
    split at h
    · next heq =>
      cases h
      obtain rfl : name = own := eq_of_beq heq
      exact ⟨List.mem_cons_self, fun n hn => List.mem_cons_of_mem _ (List.mem_append_left _ hn)⟩
    · have hrest : namesOf entries ⊆ namesOf ((own, c) :: entries) :=
        fun n hn => List.mem_cons_of_mem _ (List.mem_append_right _ hn)
      exact ⟨hrest (ih h).1, fun n hn => hrest ((ih h).2 hn)⟩

/-- The names on a way down are names of the tree, and so are those below its end. -/
theorem names_of_at? {e c : Entry} {way : List String} (h : e.at? way = some c) :
    way ⊆ e.names ∧ c.names ⊆ e.names := by
  induction way generalizing e with
  | nil =>
    cases h
    exact ⟨List.nil_subset _, fun n hn => hn⟩
  | cons name way ih =>
    cases e with
    | file content t => cases h
    | link target => cases h
    | directory entries t =>
      rw [at?_cons, Option.bind_eq_some_iff] at h
      obtain ⟨child, hchild, hway⟩ := h
      obtain ⟨hname, hnames⟩ := names_of_lookup hchild
      obtain ⟨hdown, hbelow⟩ := ih hway
      exact ⟨List.cons_subset.mpr ⟨hname, fun n hn => hnames (hdown hn)⟩,
        fun n hn => hnames (hbelow hn)⟩

theorem at?_append (e : Entry) (as bs : List String) :
    e.at? (as ++ bs) = (e.at? as).bind (·.at? bs) := by
  induction as generalizing e with
  | nil => rfl
  | cons name as ih =>
    rw [List.cons_append, at?, at?]
    cases e.child? name with
    | none => rfl
    | some c => exact ih c

end Entry

/-! ## One piece of a path -/

theorem component?_cases (piece : String) : component? piece = none ∨
    component? piece = some .parent ∨ ∃ name, component? piece = some (.normal name) := by
  unfold component?
  split
  · exact Or.inl rfl
  · split
    · exact Or.inr (Or.inl rfl)
    · exact Or.inr (Or.inr ⟨piece, rfl⟩)

namespace FileSystem

variable {fs : FileSystem}

theorem follow_nil {links : Nat} {here : NormalPath} {e : Entry} (h : fs.entry? here = some e) :
    fs.follow false links here [] = .ok (.found here e) := by
  rw [follow, h]

/-- A piece of a path, whatever comes behind it, leads to another place. Fewer links may be left there,
and a link puts the pieces of its target in front of the rest. -/
def Passes (fs : FileSystem) (piece : String) (links : Nat) (here : NormalPath) (left : Nat)
    (there : NormalPath) (front : List String) : Prop :=
  ∀ rest, fs.follow false links here (piece :: rest) = fs.follow false left there (front ++ rest)

/-- A piece of a path can only be the last one, and it does not lead to a directory. -/
def Blocks (fs : FileSystem) (piece : String) (links : Nat) (here : NormalPath) : Prop :=
  ∃ last stuck,
    (∀ rest, fs.follow false links here (piece :: rest) =
      if rest.isEmpty then last else .error stuck) ∧
    ∀ there e, last = .ok (.found there e) → e.isDirectory = false

section Piece

variable {links : Nat} {here : NormalPath} {piece name : String}

theorem passes_silent (h : component? piece = none) :
    fs.Passes piece links here links here [] := by
  intro rest
  rw [follow, h]
  rfl

theorem passes_parent (h : component? piece = some .parent) :
    fs.Passes piece links here links (here.step .parent) [] := by
  intro rest
  rw [follow, h]
  rfl

theorem passes_directory {entries : List (String × Entry)} {t : Int}
    (h : component? piece = some (.normal name)) (short : name.utf8ByteSize ≤ maxName)
    (found : fs.entry? (here.step (.normal name)) = some (.directory entries t)) :
    fs.Passes piece links here links (here.step (.normal name)) [] := by
  intro rest
  rw [follow, h]
  simp [Nat.not_lt.mpr short, found]

theorem passes_link {target : String} (h : component? piece = some (.normal name))
    (short : name.utf8ByteSize ≤ maxName)
    (found : fs.entry? (here.step (.normal name)) = some (.link target)) :
    fs.Passes piece (links + 1) here links (if isAbsolute target then ⟨[]⟩ else here)
      (pieces target) := by
  intro rest
  rw [follow, h]
  simp [Nat.not_lt.mpr short, found]

theorem follow_file {content : FileContent} {t : Int} (h : component? piece = some (.normal name))
    (short : name.utf8ByteSize ≤ maxName)
    (found : fs.entry? (here.step (.normal name)) = some (.file content t)) (rest : List String) :
    fs.follow false links here (piece :: rest) =
      if rest.isEmpty then .ok (.found (here.step (.normal name)) (.file content t))
      else .error .notDirectory := by
  rw [follow, h]
  simp [Nat.not_lt.mpr short, found]

theorem follow_absent {toWrite : Bool} (h : component? piece = some (.normal name))
    (short : name.utf8ByteSize ≤ maxName) (absent : fs.entry? (here.step (.normal name)) = none) :
    fs.follow toWrite links here [piece] = .ok (.absent here name) := by
  rw [follow, h]
  simp [isSlashed, Nat.not_lt.mpr short, absent]

theorem blocks_file {content : FileContent} {t : Int} (h : component? piece = some (.normal name))
    (short : name.utf8ByteSize ≤ maxName)
    (found : fs.entry? (here.step (.normal name)) = some (.file content t)) :
    fs.Blocks piece links here := by
  refine ⟨_, _, follow_file h short found, ?_⟩
  rintro there e ⟨⟩
  rfl

theorem blocks_absent (h : component? piece = some (.normal name))
    (short : name.utf8ByteSize ≤ maxName) (absent : fs.entry? (here.step (.normal name)) = none) :
    fs.Blocks piece links here := by
  refine ⟨.ok (.absent here name), .notFound, fun rest => ?_, nofun⟩
  rw [follow, h]
  simp [Nat.not_lt.mpr short, absent]

theorem blocks_long (h : component? piece = some (.normal name))
    (long : maxName < name.utf8ByteSize) : fs.Blocks piece links here := by
  refine ⟨.error .nameTooLong, .nameTooLong, fun rest => ?_, nofun⟩
  rw [follow, h]
  simp [long]

/-- No link is followed when none is left. -/
theorem blocks_link {target : String} (h : component? piece = some (.normal name))
    (short : name.utf8ByteSize ≤ maxName)
    (found : fs.entry? (here.step (.normal name)) = some (.link target)) :
    fs.Blocks piece 0 here := by
  refine ⟨.error .tooManyLinks, .tooManyLinks, fun rest => ?_, nofun⟩
  rw [follow, h]
  simp [Nat.not_lt.mpr short, found]

end Piece

/-- Following a path goes piece by piece. -/
theorem follow_induction {motive : Nat → NormalPath → List String → Prop}
    (nil : ∀ links here, motive links here [])
    (pass : ∀ {piece links here left there front}, fs.Passes piece links here left there front →
      ∀ rest, motive left there (front ++ rest) → motive links here (piece :: rest))
    (block : ∀ {piece links here}, fs.Blocks piece links here →
      ∀ rest, motive links here (piece :: rest))
    (links : Nat) (here : NormalPath) (todo : List String) : motive links here todo := by
  fun_induction follow fs false links here todo with
  | case1 links here => exact nil links here
  | case2 links here => exact nil links here
  | case3 links here piece rest hp ih => exact pass (passes_silent hp) rest ih
  | case4 links here piece rest hp ih => exact pass (passes_parent hp) rest ih
  | case5 => contradiction
  | case6 links here piece rest name hp _ long => exact block (blocks_long hp long) rest
  | case7 links here piece rest name hp _ short there absent =>
    exact block (blocks_absent hp (Nat.not_lt.mp short) absent) rest
  | case8 links here piece rest name hp _ short there absent =>
    exact block (blocks_absent hp (Nat.not_lt.mp short) absent) rest
  | case9 links here piece rest name hp _ short there entries t found ih =>
    exact pass (passes_directory hp (Nat.not_lt.mp short) found) rest ih
  | case10 links here piece rest name hp _ short there content t found =>
    exact block (blocks_file hp (Nat.not_lt.mp short) found) rest
  | case11 links here piece rest name hp _ short there content t found =>
    exact block (blocks_file hp (Nat.not_lt.mp short) found) rest
  | case12 here piece rest name hp _ short there target found =>
    exact block (blocks_link hp (Nat.not_lt.mp short) found) rest
  | case13 here piece rest name hp _ short there target found links ih =>
    exact pass (passes_link hp (Nat.not_lt.mp short) found) rest ih
  | case14 links here piece rest other hparent hnormal hp =>
    rcases component?_cases piece with hnone | hup | ⟨name, hname⟩
    · cases hp.symm.trans hnone
    · exact absurd (Option.some.inj (hp.symm.trans hup)) hparent
    · exact absurd (Option.some.inj (hp.symm.trans hname)) (hnormal name)

/-! ## Paths that go on -/

/-- What follows alike from everywhere follows alike behind every path. -/
theorem follow_append_congr {xs ys : List String} (hx : xs ≠ []) (hy : ys ≠ [])
    (h : ∀ links here, fs.follow false links here xs = fs.follow false links here ys)
    (links : Nat) (here : NormalPath) (todo : List String) :
    fs.follow false links here (todo ++ xs) = fs.follow false links here (todo ++ ys) := by
  induction links, here, todo using @follow_induction fs with
  | nil links here => exact h links here
  | pass hpass rest ih =>
    rw [List.cons_append, List.cons_append, hpass, hpass, ← List.append_assoc, ← List.append_assoc]
    exact ih
  | block hblock rest =>
    obtain ⟨last, stuck, hfollow, -⟩ := hblock
    rw [List.cons_append, List.cons_append, hfollow, hfollow]
    simp [hx, hy]

/-- A path that leads to a directory can go on from there. -/
theorem follow_append {links : Nat} {here there : NormalPath} {todo : List String} {e : Entry}
    (h : fs.follow false links here todo = .ok (.found there e)) (he : e.isDirectory = true) :
    ∃ left, ∀ rest, fs.follow false links here (todo ++ rest) = fs.follow false left there rest := by
  induction links, here, todo using @follow_induction fs with
  | nil links here =>
    rw [follow] at h
    split at h
    · cases h
      exact ⟨links, fun _ => rfl⟩
    · cases h
  | pass hpass rest ih =>
    obtain ⟨left, hleft⟩ := ih (hpass rest ▸ h)
    refine ⟨left, fun more => ?_⟩
    rw [List.cons_append, hpass, ← List.append_assoc, hleft]
  | block hblock rest =>
    obtain ⟨last, stuck, hfollow, hlast⟩ := hblock
    rw [hfollow] at h
    split at h
    · cases he.symm.trans (hlast there e h)
    · cases h

/-! ## Ways down -/

theorem entry?_step {here : NormalPath} {d : Entry} (h : fs.entry? here = some d) (name : String) :
    fs.entry? (here.step (.normal name)) = d.child? name := by
  unfold entry? at h ⊢
  rw [NormalPath.step, Entry.at?_append, h, Option.bind_some, Entry.at?]
  cases d.child? name <;> rfl

/-- Without links on the way down, following it ends where the tree says. -/
theorem follow_of_at? {links : Nat} {here : NormalPath} {d e : Entry} {way : List String}
    (hnames : ∀ name ∈ way, IsName name) (hhere : fs.entry? here = some d)
    (hway : d.at? way = some e) (hlink : ∀ target, e ≠ .link target) :
    ∃ there, fs.follow false links here way = .ok (.found there e) := by
  induction way generalizing here d with
  | nil =>
    cases hway
    exact ⟨here, follow_nil hhere⟩
  | cons name way ih =>
    have hname : IsName name := hnames name List.mem_cons_self
    obtain ⟨c, hchild, hdown⟩ : ∃ c, d.child? name = some c ∧ c.at? way = some e := by
      rw [Entry.at?] at hway
      split at hway
      · next c hchild => exact ⟨c, hchild, hway⟩
      · cases hway
    have hentry : fs.entry? (here.step (.normal name)) = some c := by
      rw [entry?_step hhere, hchild]
    cases c with
    | directory entries t =>
      rw [passes_directory hname.component?_eq hname.short hentry]
      exact ih (fun n hn => hnames n (List.mem_cons_of_mem name hn)) hentry hdown
    | file content t =>
      cases way with
      | nil =>
        cases hdown
        exact ⟨_, follow_file hname.component?_eq hname.short hentry []⟩
      | cons next way => cases hdown
    | link target =>
      cases way with
      | nil =>
        cases hdown
        exact absurd rfl (hlink target)
      | cons next way => cases hdown

end FileSystem

/-! ## Paths below a directory -/

/-- The place at the end of a way down from another one, as it is written. -/
def beneath (place : String) (way : List String) : String :=
  place ++ (if place.toList.getLast? = some '/' then "" else "/") ++ Text.join "/" way

theorem isAbsolute_append {a : String} (h : a ≠ "") (b : String) :
    isAbsolute (a ++ b) = isAbsolute a := by
  unfold isAbsolute
  rw [String.toList_append, List.head?_append_of_ne_nil _ (by simpa using h)]

theorem pieces_append_slash (a b : String) : pieces (a ++ "/" ++ b) = pieces a ++ pieces b := by
  unfold pieces Text.split
  have hlist : (a ++ "/" ++ b).toList = a.toList ++ '/' :: b.toList := by simp
  rw [hlist, Text.splitAt_append_sep, List.map_append]

theorem eq_or_mem_pieces {c : Char} {path : String} (h : c ∈ path.toList) :
    c = '/' ∨ ∃ piece ∈ pieces path, c ∈ piece.toList := by
  refine (Text.eq_or_mem_splitAt '/' h).imp_right fun ⟨p, hp, hc⟩ => ?_
  exact ⟨String.ofList p, List.mem_map_of_mem hp, by rwa [String.toList_ofList]⟩

theorem exists_of_getLast? {place : String} (h : place.toList.getLast? = some '/') :
    ∃ front, place = front ++ "/" := by
  obtain ⟨cs, hcs⟩ := List.getLast?_eq_some_iff.mp h
  refine ⟨String.ofList cs, String.toList_inj.mp ?_⟩
  simp [hcs]

namespace FileSystem

variable {fs : FileSystem}

/-- A slash at the end of a place makes no difference for what lies beneath. -/
theorem follow_pieces_beneath {way : List String} (hne : way ≠ []) (hway : Slashless way)
    (links : Nat) (here : NormalPath) (place : String) :
    fs.follow false links here (pieces (beneath place way)) =
      fs.follow false links here (pieces place ++ way) := by
  have hpieces : pieces (Text.join "/" way) = way := Text.split_join_slash hne hway
  unfold beneath
  split
  · next hslash =>
    obtain ⟨front, rfl⟩ := exists_of_getLast? hslash
    have hfront : pieces (front ++ "/") = pieces front ++ [""] := by
      rw [← String.append_empty (s := front ++ "/")]
      exact pieces_append_slash front ""
    have hempty (links : Nat) (here : NormalPath) :
        fs.follow false links here way = fs.follow false links here ("" :: way) :=
      (passes_silent rfl way).symm
    rw [String.append_empty, pieces_append_slash, hpieces, hfront, List.append_assoc]
    exact follow_append_congr hne (List.cons_ne_nil "" way) hempty links here (pieces front)
  · rw [pieces_append_slash, hpieces]

theorem not_mem_toList_beneath {c : Char} (hc : c ≠ '/') {place : String} {way : List String}
    (hne : way ≠ []) (hslash : Slashless way) (hplace : c ∉ place.toList)
    (hway : ∀ name ∈ way, c ∉ name.toList) : c ∉ (beneath place way).toList := by
  have hjoin : c ∉ (Text.join "/" way).toList := by
    intro h
    rcases eq_or_mem_pieces h with rfl | ⟨name, hname, hmem⟩
    · exact hc rfl
    · rw [pieces, Text.split_join_slash hne hslash] at hname
      exact hway name hname hmem
  unfold beneath
  split <;> simp [hplace, hjoin, hc]

theorem find_eq_ok_iff {path : String} {e : Entry} : fs.find path = .ok e ↔
    path ≠ "" ∧ '\x00' ∉ path.toList ∧
      ∃ there, fs.follow false maxLinks (fs.origin path) (pieces path) = .ok (.found there e) := by
  unfold find locate resolve
  by_cases hempty : path = ""
  · simp [hempty]
  · by_cases hzero : '\x00' ∈ path.toList
    · simp [hempty, hzero]
    · rw [if_neg hempty, if_neg (by simpa using hzero)]
      simp only [ne_eq, hempty, hzero, not_false_eq_true, true_and]
      constructor
      · intro h
        split at h
        · next there e' hfollow =>
          cases h
          exact ⟨there, hfollow⟩
        · cases h
        · cases h
      · rintro ⟨there, hfollow⟩
        rw [hfollow]

/-- A path of names leads to what the tree has there, if there is no link on the way. -/
theorem find_of_at? {path : String} {d e : Entry} (hnames : ∀ name ∈ pieces path, IsName name)
    (horigin : fs.entry? (fs.origin path) = some d) (hway : d.at? (pieces path) = some e)
    (hlink : ∀ target, e ≠ .link target) : fs.find path = .ok e := by
  have hempty : path ≠ "" := by
    rintro rfl
    exact (hnames "" (by decide)).nonempty rfl
  have hzero : '\x00' ∉ path.toList := by
    intro h
    rcases eq_or_mem_pieces h with h | ⟨name, hname, hmem⟩
    · cases h
    · exact (hnames name hname).zeroless hmem
  exact find_eq_ok_iff.mpr ⟨hempty, hzero, follow_of_at? hnames horigin hway hlink⟩

theorem find_of_absent {path name : String} {there : NormalPath}
    (h : fs.resolve false path = .ok (.absent there name)) : fs.find path = .error .notFound := by
  unfold find locate
  rw [h]

theorem origin_append {a : String} (h : a ≠ "") (b : String) : fs.origin (a ++ b) = fs.origin a := by
  unfold origin
  rw [isAbsolute_append h]

/-! ## Paths of one name -/

theorem pieces_of_isName {name : String} (h : IsName name) : pieces name = [name] := by
  unfold pieces Text.split
  rw [Text.splitAt_of_not_mem h.slashless, List.map_singleton, String.ofList_toList]

theorem origin_of_isName {name : String} (h : IsName name) :
    fs.origin name = fs.workingDirectory := by
  refine if_neg fun habsolute => h.slashless ?_
  exact List.mem_of_mem_head? (by simpa [isAbsolute] using habsolute)

/-- A name that is not taken in the working directory. -/
theorem resolve_of_isName {toWrite : Bool} {name : String} (h : IsName name)
    (absent : fs.entry? (fs.workingDirectory.step (.normal name)) = none) :
    fs.resolve toWrite name = .ok (.absent fs.workingDirectory name) := by
  unfold resolve
  rw [if_neg h.nonempty, if_neg (by simpa using h.zeroless), pieces_of_isName h,
    origin_of_isName h]
  exact follow_absent h.component?_eq h.short absent

/-! ## Below a directory -/

/-- Below every place the names are names that the host can give. -/
theorem Lawful.isName_of_find (hfs : fs.Lawful) {path : String} {d e : Entry} {way : List String}
    (hfind : fs.find path = .ok d) (hway : d.at? way = some e) : ∀ name ∈ way, IsName name := by
  obtain ⟨there, hthere⟩ := entry?_of_find hfind
  intro name hname
  exact hfs.isName name ((Entry.names_of_at? hthere).2 ((Entry.names_of_at? hway).1 hname))

/-- Below a directory a path leads to what the tree has there, unless that is a link. -/
theorem find_beneath (hfs : fs.Lawful) {source : String} {d e : Entry} {way : List String}
    (hfind : fs.find source = .ok d) (hd : d.isDirectory = true) (hne : way ≠ [])
    (hway : d.at? way = some e) (hlink : ∀ target, e ≠ .link target) :
    fs.find (beneath source way) = .ok e := by
  obtain ⟨hsource, hzero, there, hfollow⟩ := find_eq_ok_iff.mp hfind
  have hthere : fs.entry? there = some d := entry?_of_follow hfollow
  have hnames : ∀ name ∈ way, IsName name := hfs.isName_of_find hfind hway
  have hslash : Slashless way := fun name hname => (hnames name hname).slashless
  obtain ⟨left, hleft⟩ := follow_append hfollow hd
  obtain ⟨place, hplace⟩ : ∃ place, fs.follow false left there way = .ok (.found place e) :=
    follow_of_at? hnames hthere hway hlink
  refine find_eq_ok_iff.mpr ⟨?_, ?_, place, ?_⟩
  · simp [beneath, hsource]
  · exact not_mem_toList_beneath (by decide) hne hslash hzero fun name hname =>
      (hnames name hname).zeroless
  · have horigin : fs.origin (beneath source way) = fs.origin source := by
      unfold beneath
      rw [String.append_assoc]
      exact origin_append hsource _
    rw [horigin, follow_pieces_beneath hne hslash, hleft, hplace]

end FileSystem

end ImageLint.Host
