import ImageLint.Directory
import Mathlib.Data.List.Nodup

/-!
# Names in the tree of a host

On a host the names in a directory are different from each other and hold no slash. In such a tree a
way down tells the entry at its end: no two entries below a directory are reached on the same way,
and the ways stay different when they are written as paths.

* `Entry.WellNamed`: the rule for names.
* `FileSystem.entry?_of_find`: what a path leads to is an entry of the tree.
* `nodup_leaves`: no way leads to two files.
-/

namespace ImageLint.Host

mutual

/-- In every directory the names are different and hold no slash. -/
def Entry.WellNamed : Entry → Prop
  | .directory entries _ => (entries.map (·.1)).Nodup ∧ Entry.AllWellNamed entries
  | _ => True

def Entry.AllWellNamed : List (String × Entry) → Prop
  | [] => True
  | (name, e) :: rest => '/' ∉ name.toList ∧ e.WellNamed ∧ Entry.AllWellNamed rest

end

/-! ## Entries of the tree -/

namespace Entry

theorem wellNamed_of_lookup {entries : List (String × Entry)} {name : String} {e : Entry}
    (h : AllWellNamed entries) (hl : entries.lookup name = some e) : e.WellNamed := by
  induction entries with
  | nil => cases hl
  | cons p entries ih =>
    obtain ⟨own, c⟩ := p
    obtain ⟨-, hc, hrest⟩ := h
    rw [List.lookup_cons] at hl
    split at hl
    · cases hl
      exact hc
    · exact ih hrest hl

theorem wellNamed_child? {e c : Entry} {name : String} (h : e.WellNamed)
    (hc : e.child? name = some c) : c.WellNamed := by
  cases e with
  | file content t => cases hc
  | link target => cases hc
  | directory entries t => exact wellNamed_of_lookup h.2 hc

theorem wellNamed_at? {e c : Entry} {names : List String} (h : e.WellNamed)
    (hc : e.at? names = some c) : c.WellNamed := by
  induction names generalizing e with
  | nil =>
    cases hc
    exact h
  | cons name names ih =>
    unfold at? at hc
    split at hc
    · next child hchild => exact ih (wellNamed_child? h hchild) hc
    · cases hc

end Entry

namespace FileSystem

variable {fs : FileSystem}

theorem entry?_of_follow {toWrite : Bool} {links : Nat} {here there : NormalPath}
    {todo : List String} {e : Entry}
    (h : fs.follow toWrite links here todo = .ok (.found there e)) :
    fs.entry? there = some e := by
  fun_induction follow fs toWrite links here todo with
  | case1 links here e' he => cases h; exact he
  | case3 links here piece rest hp ih => exact ih h
  | case4 links here piece rest hp ih => exact ih h
  | case9 => rename_i ih; exact ih h
  | case10 =>
    rename_i he _
    obtain ⟨hthere, hentry⟩ := Place.found.inj (Except.ok.inj h)
    rw [← hthere, ← hentry]
    exact he
  | case13 => rename_i ih; exact ih h
  | case14 => rename_i ih; exact ih h
  | case2 | case5 | case6 | case7 | case8 | case11 | case12 => cases h

theorem entry?_of_resolve {toWrite : Bool} {path : String} {there : NormalPath} {e : Entry}
    (h : fs.resolve toWrite path = .ok (.found there e)) : fs.entry? there = some e := by
  unfold resolve at h
  split at h
  · cases h
  · split at h
    · cases h
    · exact entry?_of_follow h

theorem entry?_of_find {path : String} {e : Entry} (h : fs.find path = .ok e) :
    ∃ there, fs.entry? there = some e := by
  unfold find at h
  split at h
  · next there e' found =>
    cases h
    exact ⟨there, entry?_of_resolve found⟩
  · cases h
  · cases h

end FileSystem

/-! ## Ways down -/

/-- A way below a directory begins with one of its names. -/
theorem exists_cons_of_mem_leavesOf {entries : List (String × Entry)} {way : List String}
    (h : way ∈ Entry.leavesOf entries) :
    ∃ name ∈ entries.map (·.1), ∃ down, way = name :: down := by
  induction entries with
  | nil => cases h
  | cons p entries ih =>
    obtain ⟨name, e⟩ := p
    rcases List.mem_append.mp h with h | h
    · obtain ⟨down, -, rfl⟩ := List.mem_map.mp h
      exact ⟨name, List.mem_cons_self .., down, rfl⟩
    · obtain ⟨name', hname', down, rfl⟩ := ih h
      exact ⟨name', List.mem_cons_of_mem name hname', down, rfl⟩

mutual

/-- No name on a way down holds a slash. -/
theorem not_mem_of_mem_leaves {e : Entry} (h : e.WellNamed) {way : List String}
    (hway : way ∈ e.leaves) : ∀ name ∈ way, '/' ∉ name.toList := by
  match e, h, hway with
  | .directory entries t, h, hway => exact not_mem_of_mem_leavesOf h.2 hway
  | .file content t, _, hway =>
    rw [List.mem_singleton.mp hway]
    exact fun _ hname => nomatch hname
  | .link target, _, hway =>
    rw [List.mem_singleton.mp hway]
    exact fun _ hname => nomatch hname

theorem not_mem_of_mem_leavesOf {entries : List (String × Entry)} (h : Entry.AllWellNamed entries)
    {way : List String} (hway : way ∈ Entry.leavesOf entries) :
    ∀ name ∈ way, '/' ∉ name.toList := by
  match entries, h, hway with
  | (own, e) :: rest, h, hway =>
    obtain ⟨hown, he, hrest⟩ := h
    rcases List.mem_append.mp hway with hway | hway
    · obtain ⟨down, hdown, rfl⟩ := List.mem_map.mp hway
      intro name hname
      rcases List.mem_cons.mp hname with rfl | hname
      · exact hown
      · exact not_mem_of_mem_leaves he hdown name hname
    · exact not_mem_of_mem_leavesOf hrest hway

end

mutual

theorem nodup_leaves {e : Entry} (h : e.WellNamed) : e.leaves.Nodup := by
  match e, h with
  | .directory entries t, h => exact nodup_leavesOf h.1 h.2
  | .file content t, _ => exact List.nodup_singleton []
  | .link target, _ => exact List.nodup_singleton []

theorem nodup_leavesOf {entries : List (String × Entry)} (hn : (entries.map (·.1)).Nodup)
    (h : Entry.AllWellNamed entries) : (Entry.leavesOf entries).Nodup := by
  match entries, hn, h with
  | [], _, _ => exact List.nodup_nil
  | (name, e) :: rest, hn, h =>
    obtain ⟨hname, hn⟩ := List.nodup_cons.mp hn
    obtain ⟨-, he, hrest⟩ := h
    have hfirst : (e.leaves.map (name :: ·)).Nodup :=
      (nodup_leaves he).map fun _ _ => List.cons_inj_right name |>.mp
    refine List.nodup_append.mpr ⟨hfirst, nodup_leavesOf hn hrest, ?_⟩
    intro way hway other hother
    obtain ⟨down, -, rfl⟩ := List.mem_map.mp hway
    obtain ⟨name', hname', down', rfl⟩ := exists_cons_of_mem_leavesOf hother
    intro heq
    exact hname ((List.cons.inj heq).1 ▸ hname')

end

end ImageLint.Host
