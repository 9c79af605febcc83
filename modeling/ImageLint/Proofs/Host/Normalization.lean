import ImageLint.Proofs.Host.Resolution

/-!
# Normal forms of paths

The normal form of a path goes along its pieces from the directory that the path is seen from. Here
it is told from the text alone: join the path to the working directory, and put the components on a
stack. A normal form is absolute, holds names only, and is its own normal form. Spellings that differ
by dots, by names that are left again or by further slashes have the same one.

* `normalize_eq`: the normal form, piece by piece.
* `normalize_join`: a path seen from a working directory is the joined path seen from the root.
* `names_normalize`: the names of a normal form, by a stack.
* `components_text`, `normalize_text`: a normal form as it is written.
* `normalize_respelled`: spellings of one path.
-/

namespace ImageLint.Host

theorem ordinary_of_component? {piece name : String} (h : component? piece = some (.normal name))
    (slashless : '/' ∉ piece.toList) : Ordinary name := by
  obtain rfl := eq_of_component? h
  refine ⟨?_, ?_, ?_, slashless⟩
  · rintro rfl
    cases h
  · rintro rfl
    cases h
  · rintro rfl
    cases h

namespace NormalPath

/-- Where the pieces of a path lead from a directory, if there are no links. -/
def along (here : NormalPath) (ps : List String) : NormalPath :=
  (ps.filterMap component?).foldl step here

variable {here : NormalPath} {ps qs : List String}

theorem along_append (here : NormalPath) (ps qs : List String) :
    here.along (ps ++ qs) = (here.along ps).along qs := by
  unfold along
  rw [List.filterMap_append, List.foldl_append]

theorem along_silent {piece : String} (h : component? piece = none) : here.along [piece] = here := by
  unfold along
  rw [List.filterMap_cons_none h]
  rfl

theorem along_empty (here : NormalPath) : here.along [""] = here := along_silent rfl

theorem foldl_step_names (here : NormalPath) (names : List String) :
    (names.map Component.normal).foldl step here = ⟨here.names ++ names⟩ := by
  induction names generalizing here with
  | nil => simp
  | cons name names ih =>
    rw [List.map_cons, List.foldl_cons, ih, step, List.append_assoc, List.singleton_append]

/-- A name and two dots lead back. -/
theorem along_detour {name : String} (h : Ordinary name) (here : NormalPath) :
    here.along [name, ".."] = here := by
  have hdots : component? ".." = some .parent := rfl
  unfold along
  rw [List.filterMap_cons_some h.component?_eq, List.filterMap_cons_some hdots]
  simp [step]

/-- The names on the way are those it begins with, and pieces of the path. -/
theorem ordinary_along (hps : Slashless ps) (hhere : ∀ name ∈ here.names, Ordinary name) :
    ∀ name ∈ (here.along ps).names, Ordinary name := by
  induction ps generalizing here with
  | nil => exact hhere
  | cons piece ps ih =>
    have hsplit := along_append here [piece] ps
    rw [List.singleton_append] at hsplit
    rw [hsplit]
    refine ih (fun p hp => hps p (List.mem_cons_of_mem piece hp)) ?_
    unfold along
    rcases component?_cases piece with hc | hc | ⟨name, hc⟩
    · rw [List.filterMap_cons_none hc]
      exact hhere
    · rw [List.filterMap_cons_some hc]
      exact fun name hname => hhere name (List.dropLast_subset _ hname)
    · rw [List.filterMap_cons_some hc]
      intro other hother
      rcases List.mem_append.mp hother with hother | hother
      · exact hhere other hother
      · rw [List.mem_singleton.mp hother]
        exact ordinary_of_component? hc (hps piece List.mem_cons_self)

end NormalPath

/-! ## Normal forms -/

/-- A normal form goes along the pieces of the path, from the root if the path is absolute. -/
theorem normalize_eq (here : NormalPath) (path : String) :
    normalize here path = (if isAbsolute path then ⟨[]⟩ else here).along (pieces path) := by
  unfold normalize components NormalPath.along
  dsimp only
  split
  · rfl
  · split <;> rfl

theorem normalize_congr {a b : String} (habsolute : isAbsolute a = isAbsolute b)
    (hway : ∀ p : NormalPath, p.along (pieces a) = p.along (pieces b)) (here : NormalPath) :
    normalize here a = normalize here b := by
  rw [normalize_eq, normalize_eq, habsolute, hway]

theorem pieces_append_end (a : String) : pieces (a ++ "/") = pieces a ++ [""] := by
  have hsplit := pieces_append_slash a ""
  rwa [String.append_empty] at hsplit

theorem isAbsolute_append_slash (a b : String) : isAbsolute (a ++ "/" ++ b) = isAbsolute (a ++ "/") :=
  isAbsolute_append (by simp) b

/-- Seen from an absolute working directory, a path leads where the joined path does. -/
theorem normalize_join {w : String} (hw : isAbsolute w = true) (path : String)
    (here : NormalPath) : normalize here (join w path) = normalize (normalize here w) path := by
  have hne : w ≠ "" := by
    rintro rfl
    cases hw
  have hfrom : normalize here w = NormalPath.along ⟨[]⟩ (pieces w) := by
    rw [normalize_eq, if_pos hw]
  unfold join
  split
  · next habsolute => rw [normalize_eq, normalize_eq, if_pos habsolute, if_pos habsolute]
  · next hrelative =>
    rw [normalize_eq _ path, if_neg hrelative, hfrom]
    split
    · next hend =>
      -- A slash that is there is not written again: there is one empty piece more to go along.
      rw [Bool.or_eq_true, decide_eq_true_iff, decide_eq_true_iff] at hend
      obtain ⟨front, rfl⟩ := exists_of_getLast? (hend.resolve_left hne)
      rw [normalize_eq, isAbsolute_append hne, if_pos hw, pieces_append_slash, pieces_append_end,
        NormalPath.along_append, NormalPath.along_append, NormalPath.along_empty]
    · have hslash : w ++ "/" ≠ "" := by simp
      rw [normalize_eq, isAbsolute_append hslash, isAbsolute_append hne, if_pos hw,
        pieces_append_slash, NormalPath.along_append]

theorem ordinary_normalize {here : NormalPath} (h : ∀ name ∈ here.names, Ordinary name)
    (path : String) : ∀ name ∈ (normalize here path).names, Ordinary name := by
  rw [normalize_eq]
  refine NormalPath.ordinary_along (slashless_pieces path) ?_
  split
  · exact nofun
  · exact h

/-! ## Components on a stack -/

/-- Puts a component on a stack of names, the last one on top. Two dots take away the top, and nothing
from an empty stack, which stands for the root. -/
def settle (stack : List String) : Component → List String
  | .root => []
  | .current => stack
  | .parent => stack.tail
  | .normal name => name :: stack

theorem names_step (p : NormalPath) (c : Component) :
    (p.step c).names = (settle p.names.reverse c).reverse := by
  cases c with
  | root => rfl
  | current => exact (List.reverse_reverse p.names).symm
  | parent => simp [settle, NormalPath.step]
  | normal name => simp [settle, NormalPath.step]

theorem names_normalize (here : NormalPath) (path : String) :
    (normalize here path).names =
      ((components path).foldl settle here.names.reverse).reverse := by
  unfold normalize
  induction components path generalizing here with
  | nil => exact (List.reverse_reverse here.names).symm
  | cons c cs ih =>
    rw [List.foldl_cons, List.foldl_cons, ih, names_step, List.reverse_reverse]

/-! ## Normal forms as they are written -/

section Text

variable {p : NormalPath}

theorem isAbsolute_text (p : NormalPath) : isAbsolute p.text = true := by
  unfold NormalPath.text
  rw [isAbsolute_append (by decide)]
  decide

theorem filterMap_component?_ordinary {names : List String}
    (h : ∀ name ∈ names, Ordinary name) : names.filterMap component? = names.map .normal := by
  rw [← List.filterMap_eq_map]
  exact List.filterMap_congr fun name hname => (h name hname).component?_eq

theorem components_text (h : ∀ name ∈ p.names, Ordinary name) :
    components p.text = .root :: p.names.map .normal := by
  have hpieces : pieces p.text = "" :: pieces (Text.join "/" p.names) := by
    have hsplit := pieces_append_slash "" (Text.join "/" p.names)
    rwa [String.empty_append] at hsplit
  have hnames : (pieces (Text.join "/" p.names)).filterMap component? = p.names.map .normal := by
    -- No names are written as an empty text, which is one empty piece and not no piece.
    by_cases hroot : p.names = []
    · rw [hroot]
      rfl
    · have hcut : pieces (Text.join "/" p.names) = p.names :=
        Text.split_join_slash hroot fun name hname => (h name hname).slashless
      rw [hcut, filterMap_component?_ordinary h]
  unfold components
  dsimp only
  rw [if_pos (isAbsolute_text p), hpieces, List.filterMap_cons_none rfl, hnames]

/-- A normal form is its own, wherever it is seen from. -/
theorem normalize_text (h : ∀ name ∈ p.names, Ordinary name) (here : NormalPath) :
    normalize here p.text = p := by
  unfold normalize
  rw [components_text h, List.foldl_cons, NormalPath.foldl_step_names]
  rfl

end Text

/-! ## Spellings -/

/-- What may be put between the components of a path: a dot, or a name that is left again. -/
inductive Detour : String → Prop
  | dot : Detour "."
  | name {name : String} : Ordinary name → Detour (name ++ "/..")

theorem Detour.along {d : String} (h : Detour d) (here : NormalPath) :
    here.along (pieces d) = here := by
  cases h with
  | dot => exact NormalPath.along_silent rfl
  | @name name hname =>
    have hpieces : pieces (name ++ "/..") = [name, ".."] := by
      have hsplit := pieces_append_slash name ".."
      rw [String.append_assoc] at hsplit
      have hcut : pieces name = [name] := by
        unfold pieces Text.split
        rw [Text.splitAt_of_not_mem hname.slashless]
        simp
      rw [hcut] at hsplit
      exact hsplit
    rw [hpieces, NormalPath.along_detour hname]

/-- A path, and a spelling of it with one thing more: between two components or behind the last one a
detour, or one more slash. -/
inductive Respelled : String → String → Prop
  | detour {d : String} (front back : String) :
    Detour d → Respelled (front ++ "/" ++ back) (front ++ "/" ++ d ++ "/" ++ back)
  | detourBehind {path d : String} : path ≠ "" → Detour d → Respelled path (path ++ "/" ++ d)
  | detourBehindSlash {d : String} (front : String) :
    Detour d → Respelled (front ++ "/") (front ++ "/" ++ d)
  | doubledSlash (front back : String) : Respelled (front ++ "/" ++ back) (front ++ "//" ++ back)
  | slashBehind {path : String} : path ≠ "" → Respelled path (path ++ "/")

theorem normalize_respelled {a b : String} (h : Respelled a b) (here : NormalPath) :
    normalize here b = normalize here a := by
  cases h with
  | @detour d front back hd =>
    have hfront : front ++ "/" ++ d ≠ "" := by simp
    refine normalize_congr ?_ (fun p => ?_) here
    · rw [isAbsolute_append_slash, isAbsolute_append hfront, isAbsolute_append_slash,
        isAbsolute_append_slash]
    · rw [pieces_append_slash, pieces_append_slash, pieces_append_slash, NormalPath.along_append,
        NormalPath.along_append, NormalPath.along_append, hd.along]
  | detourBehind hne hd =>
    have hslash : a ++ "/" ≠ "" := by simp
    refine normalize_congr ?_ (fun p => ?_) here
    · rw [isAbsolute_append hslash, isAbsolute_append hne]
    · rw [pieces_append_slash, NormalPath.along_append, hd.along]
  | @detourBehindSlash d front hd =>
    refine normalize_congr (isAbsolute_append_slash front d) (fun p => ?_) here
    rw [pieces_append_slash, pieces_append_end, NormalPath.along_append,
      NormalPath.along_append, hd.along, NormalPath.along_empty]
  | doubledSlash front back =>
    have hslashes : front ++ "//" ++ back = front ++ "/" ++ "/" ++ back :=
      String.toList_inj.mp (by simp)
    have hfront : front ++ "/" ≠ "" := by simp
    rw [hslashes]
    refine normalize_congr ?_ (fun p => ?_) here
    · rw [isAbsolute_append_slash, isAbsolute_append hfront, isAbsolute_append_slash]
    · rw [pieces_append_slash, pieces_append_slash, pieces_append_end, NormalPath.along_append,
        NormalPath.along_append, NormalPath.along_append, NormalPath.along_empty]
  | slashBehind hne =>
    refine normalize_congr (isAbsolute_append hne "/") (fun p => ?_) here
    rw [pieces_append_end, NormalPath.along_append, NormalPath.along_empty]

end ImageLint.Host
