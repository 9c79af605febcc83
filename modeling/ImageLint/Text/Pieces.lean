/-!
# Pieces of a text

A text cut at every occurrence of a character, and pieces joined again with a separator. Cutting
loses nothing: `joinWith_splitAt` puts the pieces back together. Joining loses nothing either, as
long as the pieces do not hold the separator: `splitAt_joinWith`.
-/

namespace ImageLint.Text

/-- The pieces of `cs` between the occurrences of `sep`. There is always at least one. -/
def splitAt (sep : Char) : List Char → List (List Char)
  | [] => [[]]
  | c :: cs =>
    if c = sep then [] :: splitAt sep cs
    else match splitAt sep cs with
      | [] => [[c]]
      | p :: ps => (c :: p) :: ps

/-- The pieces one after another, with `sep` between neighbours. -/
def joinWith (sep : List Char) : List (List Char) → List Char
  | [] => []
  | [p] => p
  | p :: q :: ps => p ++ sep ++ joinWith sep (q :: ps)

/-- The texts one after another, with `sep` between neighbours. -/
def join (sep : String) : List String → String
  | [] => ""
  | [s] => s
  | s :: t :: ss => s ++ sep ++ join sep (t :: ss)

/-- The pieces of a text between the occurrences of `sep`. -/
def split (sep : Char) (s : String) : List String :=
  (splitAt sep s.toList).map String.ofList

theorem splitAt_ne_nil (sep : Char) (cs : List Char) : splitAt sep cs ≠ [] := by
  cases cs with
  | nil => simp [splitAt]
  | cons c cs =>
    simp only [splitAt]
    split
    · simp
    · split <;> simp

/-- Joining the pieces with the separator gives back what was cut. -/
theorem joinWith_splitAt (sep : Char) (cs : List Char) :
    joinWith [sep] (splitAt sep cs) = cs := by
  induction cs with
  | nil => rfl
  | cons c cs ih =>
    simp only [splitAt]
    split
    · next h =>
      subst h
      cases hs : splitAt c cs with
      | nil => exact absurd hs (splitAt_ne_nil _ _)
      | cons p ps => rw [hs] at ih; simp [joinWith, ih]
    · cases hs : splitAt sep cs with
      | nil => exact absurd hs (splitAt_ne_nil _ _)
      | cons p ps =>
        rw [hs] at ih
        cases ps with
        | nil => simpa [joinWith] using ih
        | cons q qs => simpa [joinWith] using ih

/-- No piece holds the separator. -/
theorem not_mem_of_mem_splitAt {sep : Char} {cs p : List Char} (h : p ∈ splitAt sep cs) :
    sep ∉ p := by
  induction cs generalizing p with
  | nil => simp [splitAt] at h; simp [h]
  | cons c cs ih =>
    simp only [splitAt] at h
    split at h
    · rcases List.mem_cons.mp h with rfl | h
      · simp
      · exact ih h
    · next hc =>
      cases hs : splitAt sep cs with
      | nil => exact absurd hs (splitAt_ne_nil _ _)
      | cons q qs =>
        rw [hs] at h ih
        rcases List.mem_cons.mp h with rfl | h
        · have := ih (List.mem_cons_self ..)
          simp only [List.mem_cons, not_or]
          exact ⟨fun e => hc e.symm, this⟩
        · exact ih (List.mem_cons_of_mem _ h)

theorem splitAt_of_not_mem {sep : Char} {cs : List Char} (h : sep ∉ cs) :
    splitAt sep cs = [cs] := by
  induction cs with
  | nil => rfl
  | cons c cs ih =>
    rw [List.mem_cons, not_or] at h
    have hc : ¬ c = sep := fun e => h.1 e.symm
    simp [splitAt, hc, ih h.2]

theorem splitAt_append {sep : Char} {cs : List Char} (h : sep ∉ cs) (rest : List Char) :
    splitAt sep (cs ++ sep :: rest) = cs :: splitAt sep rest := by
  induction cs with
  | nil => simp [splitAt]
  | cons c cs ih =>
    rw [List.mem_cons, not_or] at h
    have hc : ¬ c = sep := fun e => h.1 e.symm
    simp [splitAt, hc, ih h.2]

/-- A character that is no separator stands at the front of the first piece. -/
theorem splitAt_cons_of_ne {sep c : Char} (h : c ≠ sep) (cs : List Char) :
    ∃ p ps, splitAt sep cs = p :: ps ∧ splitAt sep (c :: cs) = (c :: p) :: ps := by
  cases hs : splitAt sep cs with
  | nil => exact absurd hs (splitAt_ne_nil sep cs)
  | cons p ps => exact ⟨p, ps, rfl, by simp [splitAt, h, hs]⟩

/-- The pieces on both sides of a separator are cut apart from each other. -/
theorem splitAt_append_sep (sep : Char) (as bs : List Char) :
    splitAt sep (as ++ sep :: bs) = splitAt sep as ++ splitAt sep bs := by
  induction as with
  | nil => simp [splitAt]
  | cons c as ih =>
    rw [List.cons_append]
    by_cases hc : c = sep
    · simp [splitAt, hc, ih]
    · obtain ⟨p, ps, hrest, hcut⟩ := splitAt_cons_of_ne hc as
      obtain ⟨q, qs, hrest', hcut'⟩ := splitAt_cons_of_ne hc (as ++ sep :: bs)
      rw [ih, hrest, List.cons_append] at hrest'
      obtain ⟨rfl, rfl⟩ := List.cons.inj hrest'
      rw [hcut, hcut', List.cons_append]

/-- A character of a text is the separator or stands in a piece. -/
theorem eq_or_mem_splitAt (sep : Char) {c : Char} {cs : List Char} (h : c ∈ cs) :
    c = sep ∨ ∃ p ∈ splitAt sep cs, c ∈ p := by
  induction cs with
  | nil => cases h
  | cons d cs ih =>
    by_cases hd : d = sep
    · rcases List.mem_cons.mp h with rfl | h
      · exact Or.inl hd
      · refine (ih h).imp_right fun ⟨p, hp, hc⟩ => ⟨p, ?_, hc⟩
        simp [splitAt, hd, hp]
    · obtain ⟨p, ps, hrest, hcut⟩ := splitAt_cons_of_ne hd cs
      rw [hcut]
      rcases List.mem_cons.mp h with rfl | h
      · exact Or.inr ⟨c :: p, List.mem_cons_self, List.mem_cons_self⟩
      · refine (ih h).imp_right fun ⟨q, hq, hc⟩ => ?_
        rw [hrest] at hq
        rcases List.mem_cons.mp hq with rfl | hq
        · exact ⟨d :: q, List.mem_cons_self, List.mem_cons_of_mem d hc⟩
        · exact ⟨q, List.mem_cons_of_mem _ hq, hc⟩

/-- Cutting at a separator gives back the pieces that were joined, if none holds it. -/
theorem splitAt_joinWith {sep : Char} {ps : List (List Char)} (hne : ps ≠ [])
    (h : ∀ p ∈ ps, sep ∉ p) : splitAt sep (joinWith [sep] ps) = ps := by
  induction ps with
  | nil => exact absurd rfl hne
  | cons p ps ih =>
    have hp : sep ∉ p := h p (List.mem_cons_self ..)
    cases ps with
    | nil => exact splitAt_of_not_mem hp
    | cons q ps =>
      have hrest := ih (List.cons_ne_nil q ps) fun r hr => h r (List.mem_cons_of_mem p hr)
      have hjoin : joinWith [sep] (p :: q :: ps) = p ++ sep :: joinWith [sep] (q :: ps) := by
        simp [joinWith]
      rw [hjoin, splitAt_append hp, hrest]

theorem toList_join (sep : String) (ss : List String) :
    (join sep ss).toList = joinWith sep.toList (ss.map String.toList) := by
  induction ss with
  | nil => rfl
  | cons s ss ih =>
    cases ss with
    | nil => rfl
    | cons t ss =>
      unfold join
      rw [String.toList_append, String.toList_append, ih]
      rfl

/-- Cutting a path at its slashes gives back the names it was joined from. -/
theorem split_join_slash {ss : List String} (hne : ss ≠ []) (h : ∀ s ∈ ss, '/' ∉ s.toList) :
    split '/' (join "/" ss) = ss := by
  have hpieces : ∀ p ∈ ss.map String.toList, '/' ∉ p := by
    intro p hp
    obtain ⟨s, hs, rfl⟩ := List.mem_map.mp hp
    exact h s hs
  have hcut : splitAt '/' (join "/" ss).toList = ss.map String.toList := by
    rw [toList_join]
    exact splitAt_joinWith (by simpa using hne) hpieces
  unfold split
  rw [hcut, List.map_map]
  exact List.map_id'' (fun s => String.ofList_toList) ss

/-- Different lists of texts without slashes give different paths. -/
theorem join_slash_injective {ss ts : List String} (hs : ss ≠ []) (ht : ts ≠ [])
    (hss : ∀ s ∈ ss, '/' ∉ s.toList) (hts : ∀ t ∈ ts, '/' ∉ t.toList)
    (h : join "/" ss = join "/" ts) : ss = ts := by
  rw [← split_join_slash hs hss, ← split_join_slash ht hts, h]

end ImageLint.Text
