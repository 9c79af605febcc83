import ImageLint.Attribute.Value
import ImageLint.Text.Blank
import ImageLint.Text.Pieces
import Mathlib.Computability.RegularExpressions
import Mathlib.Data.Bool.AllAny

/-!
# The grammar of permissions

Permissions are read character by character, with the place in a clause as the only state. Here they
are told by a grammar instead: a star, an octal mode, or clauses with commas between them. The
grammar is also written as a regular expression, `permissionsPattern`, in which clauses are iterated
and their characters are iterated within them. Cutting a text at its commas undoes the outer
iteration.

* `isClauses_iff`: the reader goes from clause to clause.
* `mem_separated_iff`: texts with separators are told piece by piece.
* `permissions_grammar`: the reader, the pattern and the grammar agree on every text.
-/

namespace ImageLint.AttributeValue

open Computability Text

/-! ## The grammar -/

/-- Three octal digits, with one zero in front of them or without. -/
def OctalMode (cs : List Char) : Prop :=
  ∃ zero digits, cs = zero ++ digits ∧ (zero = [] ∨ zero = ['0']) ∧ digits.length = 3 ∧
    ∀ c ∈ digits, c ∈ "01234567".toList

/-- Whom a clause is about, which may be left out, an operator and at least one permission. -/
def Clause (cs : List Char) : Prop :=
  ∃ who operator permissions, cs = who ++ operator :: permissions ∧
    (∀ c ∈ who, c ∈ "ugoa".toList) ∧ operator ∈ "-+=".toList ∧
    permissions ≠ [] ∧ ∀ c ∈ permissions, c ∈ "rwxst".toList

/-! ## Characters -/

theorem isOctal_iff {c : Char} : isOctal c = true ↔ c ∈ "01234567".toList := by
  have hcodes : ∀ n < 56, 48 ≤ n → Char.ofNat n ∈ "01234567".toList := by decide
  unfold isOctal
  rw [Bool.and_eq_true, decide_eq_true_iff, decide_eq_true_iff]
  constructor
  · rintro ⟨low, high⟩
    have hc := hcodes c.toNat (Nat.lt_succ_of_le high) low
    rwa [Char.ofNat_toNat] at hc
  · have hdigits : ∀ d ∈ "01234567".toList, '0' ≤ d ∧ d ≤ '7' :=
      List.all_iff_forall_prop.mp (by decide)
    exact hdigits c

theorem isWho_iff {c : Char} : isWho c = true ↔ c ∈ "ugoa".toList := by
  simp [isWho, or_assoc]

theorem isOperator_iff {c : Char} : isOperator c = true ↔ c ∈ "-+=".toList := by
  simp [isOperator, or_assoc]

theorem isPermission_iff {c : Char} : isPermission c = true ↔ c ∈ "rwxst".toList := by
  simp [isPermission, or_assoc]

theorem forall_mem_three {p : Char → Prop} {a b c : Char} (ha : p a) (hb : p b) (hc : p c) :
    ∀ d ∈ [a, b, c], p d := by
  simp [ha, hb, hc]

theorem isOctalMode_iff {cs : List Char} : isOctalMode cs = true ↔ OctalMode cs := by
  constructor
  · intro h
    unfold isOctalMode at h
    split at h
    · next a b c =>
      simp only [Bool.and_eq_true, isOctal_iff] at h
      obtain ⟨⟨ha, hb⟩, hc⟩ := h
      exact ⟨[], [a, b, c], rfl, Or.inl rfl, rfl, forall_mem_three ha hb hc⟩
    · next z a b c =>
      simp only [Bool.and_eq_true, isOctal_iff, decide_eq_true_eq] at h
      obtain ⟨⟨⟨rfl, ha⟩, hb⟩, hc⟩ := h
      exact ⟨['0'], [a, b, c], rfl, Or.inr rfl, rfl, forall_mem_three ha hb hc⟩
    · cases h
  · rintro ⟨zero, digits, rfl, hzero, hlength, hdigits⟩
    obtain ⟨a, b, c, rfl⟩ := List.length_eq_three.mp hlength
    have ha : isOctal a = true := isOctal_iff.mpr (hdigits a (by simp))
    have hb : isOctal b = true := isOctal_iff.mpr (hdigits b (by simp))
    have hc : isOctal c = true := isOctal_iff.mpr (hdigits c (by simp))
    rcases hzero with rfl | rfl <;> simp [isOctalMode, ha, hb, hc]

/-! ## The reader of clauses -/

theorem not_clause_nil : ¬ Clause [] := by
  rintro ⟨who, operator, permissions, h, -⟩
  simp at h

/-- What has to come in the rest of a clause. -/
def Completes : ClausePart → List Char → Prop
  | .who, cs => Clause cs
  | .firstPermission, cs => cs ≠ [] ∧ ∀ c ∈ cs, isPermission c = true
  | .morePermissions, cs => ∀ c ∈ cs, isPermission c = true

theorem clause_cons_of_isWho {c : Char} (h : isWho c = true) (cs : List Char) :
    Clause (c :: cs) ↔ Clause cs := by
  constructor
  · rintro ⟨who, operator, permissions, hcs, hwho, hoperator, hpermissions⟩
    cases who with
    | nil =>
      obtain ⟨rfl, -⟩ := List.cons.inj hcs
      have hdisjoint : ∀ d ∈ "ugoa".toList, d ∉ "-+=".toList :=
        List.all_iff_forall_prop.mp (by decide)
      exact absurd hoperator (hdisjoint c (isWho_iff.mp h))
    | cons d who =>
      obtain ⟨rfl, rfl⟩ := List.cons.inj hcs
      exact ⟨who, operator, permissions, rfl, fun e he => hwho e (List.mem_cons_of_mem c he),
        hoperator, hpermissions⟩
  · rintro ⟨who, operator, permissions, rfl, hwho, hrest⟩
    refine ⟨c :: who, operator, permissions, rfl, ?_, hrest⟩
    exact List.forall_mem_cons.mpr ⟨isWho_iff.mp h, hwho⟩

theorem clause_cons_of_not_isWho {c : Char} (h : ¬ isWho c = true) (cs : List Char) :
    Clause (c :: cs) ↔ isOperator c = true ∧ Completes .firstPermission cs := by
  unfold Completes
  simp only [isOperator_iff, isPermission_iff]
  constructor
  · rintro ⟨who, operator, permissions, hcs, hwho, hoperator, hpermissions⟩
    cases who with
    | nil =>
      obtain ⟨rfl, rfl⟩ := List.cons.inj hcs
      exact ⟨hoperator, hpermissions⟩
    | cons d who =>
      obtain ⟨rfl, -⟩ := List.cons.inj hcs
      exact absurd (isWho_iff.mpr (hwho c List.mem_cons_self)) h
  · rintro ⟨hoperator, hpermissions⟩
    exact ⟨[], c, cs, rfl, nofun, hoperator, hpermissions⟩

/-- The first piece completes the clause that is being read, and the others are clauses. -/
def Reads (part : ClausePart) : List (List Char) → Prop
  | [] => False
  | p :: ps => Completes part p ∧ ∀ q ∈ ps, Clause q

theorem reads_cons (part : ClausePart) (p : List Char) (ps : List (List Char)) :
    Reads part (p :: ps) ↔ Completes part p ∧ ∀ q ∈ ps, Clause q := Iff.rfl

theorem reads_who_iff {ps : List (List Char)} (h : ps ≠ []) :
    Reads .who ps ↔ ∀ p ∈ ps, Clause p := by
  cases ps with
  | nil => exact absurd rfl h
  | cons p ps => exact List.forall_mem_cons.symm

/-- A comma ends a clause, and no part of a clause is a comma. -/
theorem isClauses_iff (part : ClausePart) (cs : List Char) :
    isClauses part cs = true ↔ Reads part (splitAt ',' cs) := by
  have hcut {c : Char} (h : c ≠ ',') (cs : List Char) :
      ∃ p ps, splitAt ',' cs = p :: ps ∧ splitAt ',' (c :: cs) = (c :: p) :: ps :=
    splitAt_cons_of_ne h cs
  fun_induction isClauses part cs with
  | case1 => simp [splitAt, Reads, Completes]
  | case2 part hpart =>
    cases part with
    | who => simp [splitAt, Reads, Completes, not_clause_nil]
    | firstPermission => simp [splitAt, Reads, Completes]
    | morePermissions => exact absurd rfl hpart
  | case3 c cs hc ih =>
    refine ih.trans ?_
    obtain ⟨p, ps, hrest, hcons⟩ := hcut (c := c) (by rintro rfl; cases hc) cs
    rw [hrest, hcons, reads_cons, reads_cons]
    exact and_congr_left' (clause_cons_of_isWho hc p).symm
  | case4 c cs hc ih =>
    rw [Bool.and_eq_true]
    refine (and_congr_right' ih).trans ?_
    by_cases hcomma : c = ','
    · subst hcomma
      simp [splitAt, Reads, Completes, not_clause_nil, isOperator]
    · obtain ⟨p, ps, hrest, hcons⟩ := hcut hcomma cs
      rw [hrest, hcons, reads_cons, reads_cons, ← and_assoc]
      exact and_congr_left' (clause_cons_of_not_isWho hc p).symm
  | case5 c cs ih =>
    rw [Bool.and_eq_true]
    refine (and_congr_right' ih).trans ?_
    by_cases hcomma : c = ','
    · subst hcomma
      simp [splitAt, Reads, Completes, isPermission]
    · obtain ⟨p, ps, hrest, hcons⟩ := hcut hcomma cs
      rw [hrest, hcons, reads_cons, reads_cons]
      simp [Completes, and_assoc]
  | case6 c cs hc ih =>
    refine ih.trans ?_
    obtain ⟨p, ps, hrest, hcons⟩ := hcut (c := c) (by rintro rfl; cases hc) cs
    rw [hrest, hcons, reads_cons, reads_cons]
    simp [Completes, hc]
  | case7 c cs hc ih =>
    rw [Bool.and_eq_true]
    refine (and_congr_right' (ih.trans (reads_who_iff (splitAt_ne_nil _ _)))).trans ?_
    by_cases hcomma : c = ','
    · subst hcomma
      simp [splitAt, Reads, Completes]
    · obtain ⟨p, ps, hrest, hcons⟩ := hcut hcomma cs
      rw [hcons, reads_cons]
      simp [Completes, hcomma, hc]

/-! ## The pattern -/

open RegularExpression

/-- One of the characters of a text. -/
def anyOf (s : String) : RegularExpression Char := (s.toList.map char).foldr (· + ·) 0

/-- `0?[0-7]{3}` -/
def octalPattern : RegularExpression Char := (1 + char '0') * anyOf "01234567" ^ 3

/-- `[ugoa]*[-+=][rwxst]+` -/
def clausePattern : RegularExpression Char :=
  star (anyOf "ugoa") * (anyOf "-+=" * (anyOf "rwxst" * star (anyOf "rwxst")))

/-- `\*|0?[0-7]{3}|C(,C)*`, where `C` is the pattern of a clause. -/
def permissionsPattern : RegularExpression Char :=
  char '*' + octalPattern + clausePattern * star (char ',' * clausePattern)

theorem mem_anyOf {s : String} {w : List Char} :
    w ∈ (anyOf s).matches' ↔ ∃ c ∈ s.toList, w = [c] := by
  unfold anyOf
  induction s.toList with
  | nil => simp [Language.notMem_zero]
  | cons c cs ih =>
    rw [List.map_cons, List.foldr_cons, matches'_add, Language.mem_add, ih, List.exists_mem_cons_iff]
    rfl

theorem mem_anyOf_pow {s : String} {n : Nat} {w : List Char} :
    w ∈ (anyOf s).matches' ^ n ↔ w.length = n ∧ ∀ c ∈ w, c ∈ s.toList := by
  induction n generalizing w with
  | zero =>
    rw [pow_zero, Language.mem_one, List.length_eq_zero_iff]
    constructor
    · rintro rfl
      exact ⟨rfl, nofun⟩
    · exact And.left
  | succ n ih =>
    rw [pow_succ', Language.mem_mul]
    constructor
    · rintro ⟨_, hfirst, cs, hrest, rfl⟩
      obtain ⟨c, hc, rfl⟩ := mem_anyOf.mp hfirst
      obtain ⟨rfl, hcs⟩ := ih.mp hrest
      exact ⟨rfl, List.forall_mem_cons.mpr ⟨hc, hcs⟩⟩
    · rintro ⟨hlength, hw⟩
      obtain ⟨c, cs, rfl⟩ := List.exists_cons_of_length_eq_add_one hlength
      obtain ⟨hc, hcs⟩ := List.forall_mem_cons.mp hw
      exact ⟨[c], mem_anyOf.mpr ⟨c, hc, rfl⟩, cs, ih.mpr ⟨Nat.succ.inj hlength, hcs⟩, rfl⟩

theorem mem_star_anyOf {s : String} {w : List Char} :
    w ∈ (star (anyOf s)).matches' ↔ ∀ c ∈ w, c ∈ s.toList := by
  rw [matches'_star, Language.kstar_eq_iSup_pow, Language.mem_iSup]
  simp only [mem_anyOf_pow]
  exact ⟨fun ⟨_, _, h⟩ => h, fun h => ⟨w.length, rfl, h⟩⟩

theorem mem_octalPattern {w : List Char} : w ∈ octalPattern.matches' ↔ OctalMode w := by
  unfold octalPattern OctalMode
  rw [matches'_mul, matches'_pow, Language.mem_mul]
  simp only [mem_anyOf_pow, matches'_add, Language.mem_add]
  constructor
  · rintro ⟨zero, hzero, digits, ⟨hlength, hdigits⟩, rfl⟩
    exact ⟨zero, digits, rfl, hzero, hlength, hdigits⟩
  · rintro ⟨zero, digits, rfl, hzero, hlength, hdigits⟩
    exact ⟨zero, hzero, digits, ⟨hlength, hdigits⟩, rfl⟩

theorem mem_clausePattern {w : List Char} : w ∈ clausePattern.matches' ↔ Clause w := by
  unfold clausePattern
  simp only [matches'_mul, Language.mem_mul, mem_star_anyOf, mem_anyOf]
  constructor
  · rintro ⟨who, hwho, _, ⟨_, ⟨operator, hoperator, rfl⟩, _, ⟨_, ⟨c, hc, rfl⟩, cs, hcs, rfl⟩, rfl⟩, rfl⟩
    exact ⟨who, operator, c :: cs, rfl, hwho, hoperator, List.cons_ne_nil c cs,
      List.forall_mem_cons.mpr ⟨hc, hcs⟩⟩
  · rintro ⟨who, operator, permissions, rfl, hwho, hoperator, hne, hpermissions⟩
    obtain ⟨c, cs, rfl⟩ := List.exists_cons_of_ne_nil hne
    obtain ⟨hc, hcs⟩ := List.forall_mem_cons.mp hpermissions
    exact ⟨who, hwho, _, ⟨_, ⟨operator, hoperator, rfl⟩, _, ⟨_, ⟨c, hc, rfl⟩, cs, hcs, rfl⟩, rfl⟩, rfl⟩

/-- Words with separators between them, none of which holds a separator, are the texts whose pieces
are words. -/
theorem mem_separated_iff {sep : Char} {l : Language Char} (hl : ∀ w ∈ l, sep ∉ w)
    {w : List Char} : w ∈ l * ({[sep]} * l)∗ ↔ ∀ p ∈ splitAt sep w, p ∈ l := by
  constructor
  · intro h
    obtain ⟨first, hfirst, rest, hrest, rfl⟩ := Language.mem_mul.mp h
    obtain ⟨words, rfl, hwords⟩ := Language.mem_kstar.mp hrest
    clear h hrest
    induction words generalizing first with
    | nil =>
      rw [List.flatten_nil, List.append_nil, splitAt_of_not_mem (hl first hfirst)]
      exact List.forall_mem_singleton.mpr hfirst
    | cons word words ih =>
      obtain ⟨hword, hrest⟩ := List.forall_mem_cons.mp hwords
      obtain ⟨_, rfl, second, hsecond, rfl⟩ := Language.mem_mul.mp hword
      rw [List.flatten_cons, List.append_assoc, List.singleton_append,
        splitAt_append (hl first hfirst)]
      exact List.forall_mem_cons.mpr ⟨hfirst, ih second hsecond hrest⟩
  · have hjoin : ∀ ps : List (List Char), ps ≠ [] → (∀ p ∈ ps, p ∈ l) →
        joinWith [sep] ps ∈ l * ({[sep]} * l)∗ := by
      intro ps hne hps
      fun_induction joinWith [sep] ps with
      | case1 => exact absurd rfl hne
      | case2 p =>
        exact Language.mem_mul.mpr ⟨p, hps p List.mem_cons_self, [],
          Language.nil_mem_kstar _, List.append_nil p⟩
      | case3 p q ps ih =>
        obtain ⟨hp, hps⟩ := List.forall_mem_cons.mp hps
        obtain ⟨second, hsecond, rest, hrest, hword⟩ :=
          Language.mem_mul.mp (ih (List.cons_ne_nil q ps) hps)
        obtain ⟨words, rfl, hwords⟩ := Language.mem_kstar.mp hrest
        rw [← hword]
        refine Language.mem_mul.mpr ⟨p, hp, (([sep] ++ second) :: words).flatten, ?_, by simp⟩
        refine Language.join_mem_kstar (List.forall_mem_cons.mpr ⟨?_, hwords⟩)
        exact Language.mem_mul.mpr ⟨[sep], rfl, second, hsecond, rfl⟩
    intro h
    rw [← joinWith_splitAt sep w]
    exact hjoin _ (splitAt_ne_nil sep w) h

theorem comma_not_mem_clause {cs : List Char} (h : Clause cs) : ',' ∉ cs := by
  obtain ⟨who, operator, permissions, rfl, hwho, hoperator, -, hpermissions⟩ := h
  intro hc
  rcases List.mem_append.mp hc with hc | hc
  · exact absurd (hwho _ hc) (by decide)
  · rcases List.mem_cons.mp hc with rfl | hc
    · exact absurd hoperator (by decide)
    · exact absurd (hpermissions _ hc) (by decide)

/-- The pattern with its two levels of iterations is the grammar. -/
theorem mem_permissionsPattern {w : List Char} : w ∈ permissionsPattern.matches' ↔
    w = ['*'] ∨ OctalMode w ∨ ∀ p ∈ splitAt ',' w, Clause p := by
  have hclauses : w ∈ (clausePattern * star (char ',' * clausePattern)).matches' ↔
      ∀ p ∈ splitAt ',' w, Clause p := by
    have hcommas : ∀ p ∈ clausePattern.matches', ',' ∉ p :=
      fun p hp => comma_not_mem_clause (mem_clausePattern.mp hp)
    refine (mem_separated_iff hcommas).trans ?_
    simp only [mem_clausePattern]
  unfold permissionsPattern
  rw [matches'_add, matches'_add, Language.mem_add, Language.mem_add, mem_octalPattern, hclauses,
    or_assoc]
  rfl

/-! ## Permissions -/

theorem isPermissionsList_iff {cs : List Char} : isPermissionsList cs = true ↔
    cs = ['*'] ∨ OctalMode cs ∨ ∀ p ∈ splitAt ',' cs, Clause p := by
  unfold isPermissionsList
  rw [Bool.or_eq_true, Bool.or_eq_true, decide_eq_true_iff, isOctalMode_iff, isClauses_iff,
    reads_who_iff (splitAt_ne_nil ',' cs), or_assoc]

/-- Clauses have nothing in front of a first comma, behind a last one or between two. -/
theorem clause_append_comma (as bs : List Char) (h : isPermissionsList (as ++ ',' :: bs) = true) :
    (∀ p ∈ splitAt ',' as, Clause p) ∧ ∀ p ∈ splitAt ',' bs, Clause p := by
  have hcomma : ',' ∈ as ++ ',' :: bs := by simp
  rcases isPermissionsList_iff.mp h with h | ⟨zero, digits, h, hzero, -, hdigits⟩ | h
  · rw [h] at hcomma
    exact absurd hcomma (by decide)
  · rw [h] at hcomma
    rcases List.mem_append.mp hcomma with hmem | hmem
    · rcases hzero with rfl | rfl <;> exact absurd hmem (by decide)
    · exact absurd (hdigits _ hmem) (by decide)
  · rw [splitAt_append_sep] at h
    exact List.forall_mem_append.mp h

theorem not_isBlank_of_clause {p : List Char} (h : Clause p) {c : Char} (hc : c ∈ p) :
    isBlank c = false := by
  have hletters : ∀ d ∈ "ugoa-+=rwxst".toList, isBlank d = false :=
    List.all_iff_forall_prop.mp (by decide)
  obtain ⟨who, operator, permissions, rfl, hwho, hoperator, -, hpermissions⟩ := h
  refine hletters c ?_
  have hall : c ∈ "ugoa".toList ∨ c ∈ "-+=".toList ∨ c ∈ "rwxst".toList := by
    rcases List.mem_append.mp hc with hc | hc
    · exact Or.inl (hwho c hc)
    · rcases List.mem_cons.mp hc with rfl | hc
      · exact Or.inr (Or.inl hoperator)
      · exact Or.inr (Or.inr (hpermissions c hc))
  simpa [or_assoc] using hall

theorem not_isBlank_of_octalMode {cs : List Char} (h : OctalMode cs) {c : Char} (hc : c ∈ cs) :
    isBlank c = false := by
  have hdigit : ∀ d ∈ "01234567".toList, isBlank d = false :=
    List.all_iff_forall_prop.mp (by decide)
  obtain ⟨zero, digits, rfl, hzero, -, hdigits⟩ := h
  rcases List.mem_append.mp hc with hc | hc
  · rcases hzero with rfl | rfl
    · cases hc
    · rw [List.mem_singleton.mp hc]
      rfl
  · exact hdigit c (hdigits c hc)

theorem not_isBlank_of_isPermissionsList {cs : List Char} (h : isPermissionsList cs = true)
    {c : Char} (hc : c ∈ cs) : isBlank c = false := by
  rcases isPermissionsList_iff.mp h with rfl | h | h
  · rw [List.mem_singleton.mp hc]
    rfl
  · exact not_isBlank_of_octalMode h hc
  · rcases eq_or_mem_splitAt ',' hc with rfl | ⟨p, hp, hc⟩
    · rfl
    · exact not_isBlank_of_clause (h p hp) hc

/-- **The grammar of permissions.** A text is accepted exactly if it is a star, an octal mode with
at most one zero in front, or clauses with commas between them, and these are the texts that the
pattern matches as a whole. So no comma stands at either end of an accepted text or beside another
one, and there is no white space in it, not even a line end behind it. -/
theorem permissions_grammar (v : String) :
    (isPermissions v = true ↔
      v = "*" ∨ OctalMode v.toList ∨ ∀ clause ∈ Text.split ',' v, Clause clause.toList) ∧
    (isPermissions v = true ↔ v.toList ∈ permissionsPattern.matches') ∧
    (isPermissions v = true →
      v.toList.head? ≠ some ',' ∧ v.toList.getLast? ≠ some ',' ∧ ¬ [',', ','] <:+: v.toList ∧
        ∀ c ∈ v.toList, isBlank c = false) := by
  refine ⟨?_, isPermissionsList_iff.trans mem_permissionsPattern.symm, ?_⟩
  · have hstar : v.toList = ['*'] ↔ v = "*" := @String.toList_inj v "*"
    have hpieces : (∀ p ∈ splitAt ',' v.toList, Clause p) ↔
        ∀ clause ∈ Text.split ',' v, Clause clause.toList := by
      simp [Text.split]
    exact isPermissionsList_iff.trans (by rw [hstar, hpieces])
  · intro h
    have hempty : ¬ ∀ p ∈ splitAt ',' [], Clause p :=
      fun hnil => not_clause_nil (hnil [] List.mem_cons_self)
    refine ⟨?_, ?_, ?_, fun c hc => not_isBlank_of_isPermissionsList h hc⟩
    · intro hhead
      obtain ⟨bs, hv⟩ := List.head?_eq_some_iff.mp hhead
      rw [isPermissions, hv] at h
      exact hempty (clause_append_comma [] bs h).1
    · intro hlast
      obtain ⟨as, hv⟩ := List.getLast?_eq_some_iff.mp hlast
      rw [isPermissions, hv] at h
      exact hempty (clause_append_comma as [] h).2
    · rintro ⟨as, bs, hv⟩
      rw [isPermissions, ← hv, List.append_assoc] at h
      have hdouble := (clause_append_comma as (',' :: bs) h).2
      exact hempty (List.forall_mem_append.mp (splitAt_append_sep ',' [] bs ▸ hdouble)).1

theorem permissions_grammar_twoClauses :
    isPermissions "u=rwx,g-s" = true ∧ "u=rwx,g-s".toList.head? ≠ some ',' ∧
      "u=rwx,g-s".toList.getLast? ≠ some ',' ∧ ¬ [',', ','] <:+: "u=rwx,g-s".toList ∧
      ∀ c ∈ "u=rwx,g-s".toList, isBlank c = false := by
  have haccepted : isPermissions "u=rwx,g-s" = true := by decide
  exact ⟨haccepted, (permissions_grammar "u=rwx,g-s").2.2 haccepted⟩

end ImageLint.AttributeValue
