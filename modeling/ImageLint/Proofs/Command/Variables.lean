import ImageLint.Command.Settings
import ImageLint.Proofs.Text.Trim
import ImageLint.Proofs.Variable.Coverage
import ImageLint.Proofs.Variable.Layers

/-!
# From the arguments to the values of variables

A variable can be given by the environment, by the configuration file and by the arguments, by each
of them several times. A value of the option for variables is cut at every comma, and each piece at
its first equals sign. The last piece for a name wins, over everything that the file and the
environment say about it.

* `Gives`, `Layered`: which value a name has, as a relation.
* `parseVariable_eq_some_iff`: what a piece says.
* `Arguments.parse_handed`: the option in all its spellings.
* `variables_are_layered`: all of it together.
-/

namespace ImageLint

namespace Command

open Text

/-! ## Pieces -/

/-- A value is cut at every comma. -/
structure CutAtCommas (value : String) (pieces : List String) : Prop where
  join : join "," pieces = value
  comma : ∀ piece ∈ pieces, ',' ∉ piece.toList
  ne_nil : pieces ≠ []

/-- A piece is cut at its first equals sign. -/
structure CutAtEquals (piece front value : String) : Prop where
  append : piece = front ++ "=" ++ value
  equals : '=' ∉ front.toList

/-- A piece gives a value to a name: all that stands behind the first equals sign to what is left of
the part before it without the blanks at both ends. -/
def Gives (piece name value : String) : Prop :=
  ∃ front, CutAtEquals piece front value ∧ Trimmed front name

theorem cutAtCommas_iff {value : String} {pieces : List String} :
    CutAtCommas value pieces ↔ pieces = split ',' value := by
  have hid : String.ofList ∘ String.toList = id := funext fun _ => String.ofList_toList
  have hid' : String.toList ∘ String.ofList = id := funext fun _ => String.toList_ofList
  constructor
  · rintro ⟨rfl, hcomma, hne⟩
    have hcut : splitAt ',' (joinWith [','] (pieces.map String.toList)) =
        pieces.map String.toList :=
      splitAt_joinWith (by simpa using hne) (by simpa using hcomma)
    have hjoin : (join "," pieces).toList = joinWith [','] (pieces.map String.toList) :=
      toList_join "," pieces
    rw [split, hjoin, hcut, List.map_map, hid, List.map_id]
  · rintro rfl
    refine ⟨String.toList_injective ?_, ?_, ?_⟩
    · rw [toList_join, split, List.map_map, hid', List.map_id]
      exact joinWith_splitAt ',' value.toList
    · intro piece hpiece
      obtain ⟨p, hp, rfl⟩ := List.mem_map.mp hpiece
      rw [String.toList_ofList]
      exact not_mem_of_mem_splitAt hp
    · unfold split
      rw [ne_eq, List.map_eq_nil_iff]
      exact splitAt_ne_nil ',' value.toList

theorem forall₂_cutAtCommas_iff {values : List String} {cut : List (List String)} :
    List.Forall₂ CutAtCommas values cut ↔ cut = values.map (split ',') := by
  have hcut : CutAtCommas = fun value pieces => split ',' value = pieces :=
    funext fun _ => funext fun _ => propext (cutAtCommas_iff.trans eq_comm)
  rw [hcut, ← List.forall₂_map_left_iff, List.forall₂_eq_eq_eq, eq_comm]

theorem splitAtEquals_eq_some_iff {cs front rest : List Char} :
    splitAtEquals cs = some (front, rest) ↔ cs = front ++ '=' :: rest ∧ '=' ∉ front := by
  fun_induction splitAtEquals cs generalizing front with
  | case1 => simp
  | case2 cs =>
    cases front with
    | nil => simp [eq_comm]
    | cons d front =>
      refine iff_of_false (by simp) ?_
      rintro ⟨h, hequals⟩
      rw [(List.cons.inj h).1] at hequals
      exact hequals List.mem_cons_self
  | case3 c cs hc ih =>
    cases front with
    | nil => simp [show ¬ c = '=' from hc]
    | cons d front =>
      rw [Option.map_eq_some_iff, List.cons_append, List.cons.injEq, List.mem_cons, not_or]
      constructor
      · rintro ⟨⟨_, _⟩, hrest, heq⟩
        cases heq
        obtain ⟨happend, hequals⟩ := ih.mp hrest
        exact ⟨⟨rfl, happend⟩, fun h => hc h.symm, hequals⟩
      · rintro ⟨⟨rfl, happend⟩, -, hequals⟩
        exact ⟨(front, rest), ih.mpr ⟨happend, hequals⟩, rfl⟩

theorem cutAtEquals_iff {piece front value : String} : CutAtEquals piece front value ↔
    splitAtEquals piece.toList = some (front.toList, value.toList) := by
  rw [splitAtEquals_eq_some_iff]
  constructor
  · rintro ⟨rfl, h⟩
    exact ⟨by simp, h⟩
  · rintro ⟨happend, h⟩
    refine ⟨String.toList_injective ?_, h⟩
    rw [happend]
    simp

theorem parseVariable_eq_some_iff {piece name value : String} :
    parseVariable piece = some (name, value) ↔ Gives piece name value := by
  constructor
  · intro h
    unfold parseVariable at h
    split at h
    next => cases h
    next front rest hcut =>
      split at h
      next => cases h
      next hblank =>
        cases h
        refine ⟨String.ofList front, cutAtEquals_iff.mpr (by simpa using hcut), ?_⟩
        exact trimmed_iff.mpr ⟨by simpa [isBlankText] using hblank, rfl⟩
  · rintro ⟨front, hcut, htrimmed⟩
    obtain ⟨hblank, rfl⟩ := trimmed_iff.mp htrimmed
    have hfront : ¬ front.toList.all isBlank = true := by simpa [isBlankText] using hblank
    unfold parseVariable
    rw [cutAtEquals_iff.mp hcut]
    simp only [if_neg hfront, String.ofList_toList]

/-- A piece is accepted if there is something that is not blank before its first equals sign. -/
theorem isSome_parseVariable_iff {piece : String} : (parseVariable piece).isSome = true ↔
    ∃ front value, CutAtEquals piece front value ∧ isBlankText front = false := by
  rw [Option.isSome_iff_exists]
  constructor
  · rintro ⟨⟨name, value⟩, h⟩
    obtain ⟨front, hcut, htrimmed⟩ := parseVariable_eq_some_iff.mp h
    exact ⟨front, value, hcut, (trimmed_iff.mp htrimmed).1⟩
  · rintro ⟨front, value, hcut, hblank⟩
    exact ⟨(trim front, value), parseVariable_eq_some_iff.mpr
      ⟨front, hcut, trimmed_iff.mpr ⟨hblank, rfl⟩⟩⟩

/-! ## The option in its spellings -/

/-- Takes the values that are handed to the option for variables, one after another. -/
def Arguments.handed (a : Arguments) (values : List String) : Except UsageError Arguments :=
  values.foldlM (fun a value => a.addValue .binding value) a

/-- How a value is handed to the option for variables: in one argument with its name, or in an
argument of its own, which must not look like an option. -/
inductive Spelled : String → List String → Prop where
  | long (value : String) : Spelled value ["--env=" ++ value]
  | short (value : String) : Spelled value ["-e=" ++ value]
  | attached {value : String} :
      value ≠ "" → value.toList.head? ≠ some '=' → Spelled value ["-e" ++ value]
  | apart {name value : String} :
      name = "--env" ∨ name = "-e" → value.toList.head? ≠ some '-' → Spelled value [name, value]

/-- What the values add to the arguments are the variables of all pieces, or one of them is none. -/
theorem Arguments.handed_eq (a : Arguments) (values : List String) :
    a.handed values =
      ((values.flatMap (split ',')).mapM parseVariable).elim (.error .invalidVariable)
        fun bs => .ok { a with bindings := a.bindings ++ bs } := by
  unfold handed
  induction values generalizing a with
  | nil => simp [pure, Except.pure]
  | cons value values ih =>
    have hvalue : (split ',' value).mapM parseVariable = parseVariables value := rfl
    rw [List.foldlM_cons, List.flatMap_cons, List.mapM_append, hvalue]
    cases hbs : parseVariables value with
    | none => simp [addValue, hbs, bind, Except.bind]
    | some bs =>
      have hadd : a.addValue .binding value = .ok { a with bindings := a.bindings ++ bs } := by
        simp [addValue, hbs]
      rw [hadd]
      show List.foldlM _ { a with bindings := a.bindings ++ bs } values = _
      rw [ih]
      cases (values.flatMap (split ',')).mapM parseVariable <;> simp

theorem Arguments.exists_of_handed {a b : Arguments} {values : List String}
    (h : a.handed values = .ok b) : ∃ bs,
      (values.flatMap (split ',')).mapM parseVariable = some bs ∧
        b.bindings = a.bindings ++ bs := by
  rw [a.handed_eq] at h
  cases hbs : (values.flatMap (split ',')).mapM parseVariable with
  | none =>
    rw [hbs] at h
    cases h
  | some bs =>
    rw [hbs] at h
    cases h
    exact ⟨bs, rfl, rfl⟩

namespace Reading

/-- Nothing is read in part: no option waits for its value, and no files are being read. -/
def Complete (r : Reading) : Prop :=
  r.pending = .nothing ∨ ∃ p value, r.pending = .parameter p (some value)

theorem all_cons {r : Reading} {word : String} (h : word ≠ "--") (rest : List String) :
    r.all (word :: rest) = r.argument word >>= fun r => r.all rest := by
  rw [all, if_neg h]

theorem foldlM_file (arguments : Arguments) (before files : List String) :
    files.foldlM file { arguments, pending := .files before } =
      .ok { arguments, pending := .files (before ++ files) } := by
  induction files generalizing before with
  | nil => rw [List.append_nil]; rfl
  | cons path files ih =>
    rw [List.foldlM_cons]
    show files.foldlM file { arguments, pending := .files (before ++ [path]) } = _
    rw [ih, List.append_assoc, List.cons_append, List.nil_append]

theorem all_files {r : Reading} (hr : r.Complete) {files : List String} (hfiles : files ≠ []) :
    r.all ("--" :: files) =
      r.settle >>= fun arguments => .ok { arguments, pending := .files files } := by
  obtain ⟨path, files, rfl⟩ := List.exists_cons_of_ne_nil hfiles
  have hfile : r.file path =
      r.settle >>= fun arguments => .ok { arguments, pending := .files [path] } := by
    unfold file
    rcases hr with h | ⟨p, value, h⟩ <;> simp only [h] <;> rfl
  rw [all, if_pos rfl, List.foldlM_cons, hfile, bind_assoc]
  refine bind_congr fun arguments => ?_
  exact foldlM_file arguments [path] files

/-- The spellings in one argument. -/
theorem argument_spelled (r : Reading) {word value : String} (h : Spelled value [word]) :
    word ≠ "--" ∧ r.argument word = r.parameter .binding (some value) := by
  have hlong : longNames.lookup "env" = some (.parameter .binding) := by decide
  have hshort : shortNames.lookup 'e' = some (.parameter .binding) := by decide
  have hne {c : Char} {cs : List Char} (hc : c ≠ '-') (h : word.toList = '-' :: c :: cs) :
      word ≠ "--" := by
    rintro rfl
    exact hc (List.cons.inj (List.cons.inj h).2).1.symm
  cases h with
  | long =>
    have hword : ("--env=" ++ value).toList = '-' :: '-' :: 'e' :: 'n' :: 'v' :: '=' ::
        value.toList := by simp
    refine ⟨fun h => ?_, ?_⟩
    · rw [h] at hword
      simp at hword
    · unfold argument
      simp [hword, long, splitAtEquals, hlong]
  | short =>
    have hword : ("-e=" ++ value).toList = '-' :: 'e' :: '=' :: value.toList := by simp
    refine ⟨hne (by decide) hword, ?_⟩
    unfold argument
    simp [hword, short, hshort, attachedValue]
  | attached hempty hequals =>
    have hword : ("-e" ++ value).toList = '-' :: 'e' :: value.toList := by simp
    refine ⟨hne (by decide) hword, ?_⟩
    have hattached : attachedValue value.toList = some value := by
      unfold attachedValue
      split
      next h => exact absurd (String.toList_eq_nil_iff.mp h) hempty
      next h => simp [h] at hequals
      next => rw [String.ofList_toList]
    unfold argument
    simp [hword, short, hshort, hattached]

theorem all_apart {r : Reading} {name value : String} {rest : List String}
    (hname : name = "--env" ∨ name = "-e") (hvalue : value.toList.head? ≠ some '-') :
    r.all (name :: value :: rest) =
      r.settle >>= fun arguments =>
        all { arguments, pending := .parameter .binding (some value) } rest := by
  have hword : name ≠ "--" ∧ r.argument name = r.parameter .binding none := by
    rcases hname with rfl | rfl <;> exact ⟨by decide, rfl⟩
  have hplain (arguments : Arguments) :
      argument { arguments, pending := .parameter .binding none } value =
        .ok { arguments, pending := .parameter .binding (some value) } := by
    unfold argument
    split
    next h => simp [h] at hvalue
    next h => simp [h] at hvalue
    next => rfl
  have hdashes : value ≠ "--" := by
    rintro rfl
    exact hvalue rfl
  rw [all_cons hword.1, hword.2, parameter, bind_assoc]
  refine bind_congr fun arguments => ?_
  show all _ (value :: rest) = _
  rw [all_cons hdashes, hplain]
  rfl

/-- What is read is the value and nothing more, once the arguments before it are known. -/
def Takes (read : Arguments → Except UsageError Reading) (value : String) : Prop :=
  ∀ a, read a >>= settle = a.addValue .binding value ∧ ∀ r, read a = .ok r → r.Complete

theorem takes_addValue (value : String) :
    Takes (fun a => a.addValue .binding value >>= fun arguments => .ok { arguments }) value := by
  intro a
  refine ⟨?_, fun r hread => ?_⟩
  · show (a.addValue .binding value >>= fun arguments => .ok { arguments }) >>= settle = _
    rw [bind_assoc]
    exact bind_pure (a.addValue .binding value)
  · dsimp only at hread
    cases hadd : a.addValue .binding value with
    | error e =>
      rw [hadd] at hread
      cases hread
    | ok arguments =>
      rw [hadd] at hread
      cases hread
      exact Or.inl rfl

/-- The words for a value are read as that value. -/
theorem all_spelled {value : String} {words : List String} (h : Spelled value words)
    (r : Reading) (rest : List String) :
    ∃ read, Takes read value ∧ r.all (words ++ rest) = (r.settle >>= read) >>= (·.all rest) := by
  have htaken {word : String} (h : Spelled value [word]) : ∃ read, Takes read value ∧
      r.all (word :: rest) = (r.settle >>= read) >>= (·.all rest) := by
    obtain ⟨hdashes, hword⟩ := r.argument_spelled h
    refine ⟨_, takes_addValue value, ?_⟩
    rw [all_cons hdashes, hword]
    rfl
  cases h with
  | long => exact htaken (.long value)
  | short => exact htaken (.short value)
  | attached hne hequals => exact htaken (.attached hne hequals)
  | apart hname hvalue =>
    refine ⟨fun arguments => .ok { arguments, pending := .parameter .binding (some value) },
      fun a => ⟨rfl, ?_⟩, ?_⟩
    · rintro r' ⟨⟩
      exact Or.inr ⟨.binding, value, rfl⟩
    · rw [bind_assoc]
      exact all_apart hname hvalue

/-- Words for values and then files are read as these values and files. -/
theorem all_handed {values : List String} {words : List (List String)}
    (h : List.Forall₂ Spelled values words) {r : Reading} (hr : r.Complete) {files : List String}
    (hfiles : files ≠ []) :
    r.all (words.flatten ++ "--" :: files) >>= settle =
      (r.settle >>= (·.handed values)) >>= (·.addFiles files) := by
  -- a value in an argument of its own is looked at with the words behind it, so the induction goes
  -- over every complete reading, and what is pending there is settled on both sides
  induction h generalizing r with
  | nil =>
    rw [List.flatten_nil, List.nil_append, all_files hr hfiles, bind_assoc, bind_assoc]
    rfl
  | @cons value _ values _ hvalue _ ih =>
    obtain ⟨read, hread, hall⟩ := r.all_spelled hvalue _
    rw [List.flatten_cons, List.append_assoc, hall, bind_assoc, bind_assoc, bind_assoc]
    refine bind_congr fun a => ?_
    obtain ⟨htaken, hcomplete⟩ := hread a
    have hhanded : a.handed (value :: values) =
        (a.addValue .binding value >>= (·.handed values)) := List.foldlM_cons
    rw [hhanded, ← htaken]
    cases hstep : read a with
    | error e => rfl
    | ok r' => exact ih (hcomplete r' hstep)

end Reading

/-- Arguments with values for the option, in any spelling, and with files are read as such. -/
theorem Arguments.parse_handed {values : List String} {words : List (List String)}
    (h : List.Forall₂ Spelled values words) {files : List String} (hfiles : files ≠ [])
    (hempty : "" ∉ files) :
    parse (words.flatten ++ "--" :: files) = handed { files } values := by
  have hread := Reading.all_handed h (r := {}) (Or.inl rfl) hfiles
  have hparse (words : List String) : parse words =
      (Reading.all {} words >>= Reading.settle) >>= fun a =>
        if a.files.isEmpty then .error .noFiles else pure a := by
    unfold parse
    rw [bind_assoc]
  have hadd (a : Arguments) : a.addFiles files = .ok { a with files := a.files ++ files } := by
    unfold addFiles
    rw [if_neg (by simpa using hempty)]
  have hsettle : Reading.settle {} = .ok {} := rfl
  rw [hparse, hread, hsettle]
  show (handed {} values >>= _) >>= _ = _
  rw [handed_eq, handed_eq]
  cases (values.flatMap (split ',')).mapM parseVariable with
  | none => rfl
  | some bs =>
    show (addFiles _ files >>= _) = _
    rw [hadd]
    show (if files.isEmpty then _ else _) = _
    rw [if_neg (by simpa using hfiles)]
    rfl

/-! ## Layers -/

/-- The value of a name in a run is that of the last piece for it, or else that of the configuration
file, or else the last of the environment. -/
def Layered (pieces : List String) (config environment : List (String × String))
    (name value : String) : Prop :=
  LastOf Gives pieces name value ∨ Silent Gives pieces name ∧
    (LastOf Binds config name value ∨ Silent Binds config name ∧
      LastOf Binds environment name value)

theorem value_layer_iff (environment config arguments : List (String × String))
    (name value : String) :
    (Settings.layer environment config arguments).value name = some value ↔
      LastOf Binds arguments name value ∨ Silent Binds arguments name ∧
        (LastOf Binds config name value ∨ Silent Binds config name ∧
          LastOf Binds environment name value) := by
  unfold Settings.layer
  rw [Bindings.value_insertAll_iff, Bindings.value_insertAll_iff, Bindings.value_insertAll_iff]
  have hempty : Bindings.empty.value name ≠ some value := nofun
  simp [hempty]

/-- Pieces that are accepted bind what they give. -/
theorem forall₂_of_mapM {pieces : List String} {bs : List (String × String)}
    (h : pieces.mapM parseVariable = some bs) :
    List.Forall₂ (fun piece b => ∀ name value, Gives piece name value ↔ Binds b name value)
      pieces bs := by
  induction pieces generalizing bs with
  | nil =>
    cases h
    exact .nil
  | cons piece pieces ih =>
    rw [List.mapM_cons] at h
    obtain ⟨b, hb, h⟩ := Option.bind_eq_some_iff.mp h
    obtain ⟨rest, hrest, h⟩ := Option.bind_eq_some_iff.mp h
    cases h
    refine .cons (fun name value => ?_) (ih hrest)
    rw [← parseVariable_eq_some_iff, hb, Option.some.injEq]
    rfl

theorem exists_mapM_iff {pieces : List String} : (∃ bs, pieces.mapM parseVariable = some bs) ↔
    ∀ piece ∈ pieces, ∃ front value, CutAtEquals piece front value ∧ isBlankText front = false := by
  simp only [← isSome_parseVariable_iff]
  induction pieces with
  | nil => simp
  | cons piece pieces ih =>
    rw [List.forall_mem_cons, ← ih, Option.isSome_iff_exists]
    simp only [List.mapM_cons, Option.bind_eq_bind, Option.bind_eq_some_iff]
    constructor
    · rintro ⟨-, b, hb, bs, hbs, -⟩
      exact ⟨⟨b, hb⟩, bs, hbs⟩
    · rintro ⟨⟨b, hb⟩, bs, hbs⟩
      exact ⟨b :: bs, b, hb, bs, hbs, rfl⟩

/-- The settings of a run have the value that the layers say. -/
theorem value_resolve_iff {pieces : List String} {bs : List (String × String)}
    (hbs : pieces.mapM parseVariable = some bs) {a : Arguments} (ha : a.bindings = bs)
    (config : Option Config) (environment : List (String × String)) (name value : String) :
    (Settings.resolve a config environment).bindings.value name = some value ↔
      Layered pieces (config.getD {}).bindings environment name value := by
  obtain ⟨hsilent, hlast⟩ := lastOf_congr (forall₂_of_mapM hbs) name
  have hlayer := value_layer_iff environment (config.getD {}).bindings bs name value
  rw [Layered, hsilent, hlast, ← hlayer, ← ha]
  rfl

/-- Two layers agree on every name that is not given by the arguments. -/
def AgreeBeyond (pieces : List String) (layer layer' : List (String × String)) : Prop :=
  ∀ name, Silent Gives pieces name →
    ∀ value, LastOf Binds layer name value ↔ LastOf Binds layer' name value

/-- What the lower layers say about a name that is given by the arguments is of no account. -/
theorem layered_congr {pieces : List String} {config config' environment environment' :
    List (String × String)} (hconfig : AgreeBeyond pieces config config')
    (henvironment : AgreeBeyond pieces environment environment') (name value : String) :
    Layered pieces config environment name value ↔
      Layered pieces config' environment' name value := by
  refine or_congr_right (and_congr_right fun hsilent => ?_)
  simp only [silent_iff, hconfig name hsilent, henvironment name hsilent]

theorem agreeBeyond_cons {pieces : List String} {name : String} (h : ¬ Silent Gives pieces name)
    (value : String) (layer : List (String × String)) :
    AgreeBeyond pieces ((name, value) :: layer) layer := by
  intro other hsilent bound
  rw [lastOf_cons_iff]
  refine or_iff_left ?_
  rintro ⟨hbinds, -⟩
  obtain rfl : name = other := congrArg Prod.fst hbinds
  exact h hsilent

/-- **Variables are layered.** The values of the option for variables are accepted, however they are
spelled, exactly if every piece of them has something that is not blank before its first equals
sign. Then a name has the value of the last piece for it, or else that of the configuration file, or
else that of the last pair of the environment, or none, in the settings and in what an analysis is
told. So nothing that the file or the environment say about a name with a piece changes a text or a
model in which variables are replaced. -/
theorem variables_are_layered (values : List String) :
    ∃ cut, (∀ cut', List.Forall₂ CutAtCommas values cut' ↔ cut' = cut) ∧
      (∀ words files, List.Forall₂ Spelled values words → files ≠ [] → "" ∉ files →
        Arguments.parse (words.flatten ++ "--" :: files) = Arguments.handed { files } values) ∧
      (∀ a : Arguments, (∃ b, a.handed values = .ok b) ↔ ∀ piece ∈ cut.flatten,
        ∃ front value, CutAtEquals piece front value ∧ isBlankText front = false) ∧
      ∀ a b : Arguments, a.bindings = [] → a.handed values = .ok b →
        (∀ config environment name value,
          let s := Settings.resolve b config environment
          let layered := Layered cut.flatten (config.getD {}).bindings environment name value
          (s.bindings.value name = some value ↔ layered) ∧
            (s.analysisOptions.bindings.value name = some value ↔ layered)) ∧
        ∀ config environment config' environment',
          AgreeBeyond cut.flatten (config.getD {}).bindings (config'.getD {}).bindings →
          AgreeBeyond cut.flatten environment environment' →
          let bindings := (Settings.resolve b config environment).analysisOptions.bindings
          let bindings' := (Settings.resolve b config' environment').analysisOptions.bindings
          (∀ s, Variable.substitute bindings.value s = Variable.substitute bindings'.value s) ∧
            ∀ m : Model, m.substitute bindings = m.substitute bindings' := by
  have hflatten : (values.map (split ',')).flatten = values.flatMap (split ',') :=
    List.flatMap_def.symm
  refine ⟨values.map (split ','), fun _ => forall₂_cutAtCommas_iff,
    fun _ _ h => Arguments.parse_handed h, fun a => ?_, ?_⟩
  · rw [hflatten, ← exists_mapM_iff, a.handed_eq]
    cases (values.flatMap (split ',')).mapM parseVariable <;> simp
  · intro a b ha hb
    obtain ⟨bs, hbs, hbindings⟩ := Arguments.exists_of_handed hb
    rw [ha, List.nil_append] at hbindings
    rw [← hflatten] at hbs
    have hlayered := value_resolve_iff hbs hbindings
    have hanalysis (s : Settings) : s.analysisOptions.bindings = s.bindings := rfl
    refine ⟨fun config environment name value => ?_, ?_⟩
    · dsimp only
      rw [hanalysis]
      exact ⟨hlayered config environment name value, hlayered config environment name value⟩
    intro config environment config' environment' hconfig henvironment bindings bindings'
    have hvalue : bindings.value = bindings'.value := by
      funext name
      refine Option.ext fun value => ?_
      exact ((hlayered config environment name value).trans
        (layered_congr hconfig henvironment name value)).trans
        (hlayered config' environment' name value).symm
    refine ⟨fun s => by rw [hvalue], fun m => ?_⟩
    rw [m.substitute_eq_mapStrings, m.substitute_eq_mapStrings, hvalue]

/-! ## A name in every layer -/

theorem variables_are_layered_repeated :
    let values := ["A=1,B=x=y", " A = 2"]
    let words := [["--env=A=1,B=x=y"], ["-e", " A = 2"]]
    let config : Config := { bindings := [("A", "c"), ("C", "c")] }
    let environment := [("A", "e"), ("C", "e")]
    List.Forall₂ Spelled values words ∧
      ∃ b, Arguments.parse ["--env=A=1,B=x=y", "-e", " A = 2", "--", "f"] = .ok b ∧
        (Settings.resolve b (some config) environment).bindings.value "A" = some " 2" ∧
        (Settings.resolve b (some config) environment).bindings.value "C" = some "c" ∧
        ∀ m : Model,
          m.substitute (Settings.resolve b (some config) environment).analysisOptions.bindings =
            m.substitute (Settings.resolve b (some { bindings := [("C", "c")] })
              [("C", "e")]).analysisOptions.bindings := by
  intro values words config environment
  have hwords : List.Forall₂ Spelled values words := by
    refine .cons (.long _) (.cons (.apart (Or.inr rfl) (by decide)) .nil)
  obtain ⟨cut, hcut, hparse, haccepted, hresolve⟩ := variables_are_layered values
  have hpieces : cut.flatten = ["A=1", "B=x=y", " A = 2"] := by
    rw [← (hcut _).mp (forall₂_cutAtCommas_iff.mpr rfl)]
    decide
  have hfiles : Arguments.parse ["--env=A=1,B=x=y", "-e", " A = 2", "--", "f"] =
      Arguments.handed { files := ["f"] } values :=
    hparse words ["f"] hwords (by decide) (by decide)
  have hall : ∀ piece ∈ cut.flatten, (parseVariable piece).isSome = true := by
    rw [hpieces]
    decide
  obtain ⟨b, hb⟩ := (haccepted { files := ["f"] }).mpr
    fun piece hpiece => isSome_parseVariable_iff.mp (hall piece hpiece)
  obtain ⟨hlayered, hagree⟩ := hresolve { files := ["f"] } b rfl hb
  have hlast : LastOf Gives cut.flatten "A" " 2" := by
    have hgives : Gives " A = 2" "A" " 2" := parseVariable_eq_some_iff.mp (by decide)
    rw [hpieces]
    exact .later (.later (.here hgives (List.forall_mem_nil _)))
  have hgiven : ¬ Silent Gives cut.flatten "A" := fun h => silent_iff.mp h " 2" hlast
  have hsilent : Silent Gives cut.flatten "C" := by
    have hother : ∀ piece ∈ cut.flatten, (parseVariable piece).map Prod.fst ≠ some "C" := by
      rw [hpieces]
      decide
    intro piece hpiece value hgives
    refine hother piece hpiece ?_
    rw [parseVariable_eq_some_iff.mpr hgives]
    rfl
  have hconfig : LastOf Binds config.bindings "C" "c" := .later (.here rfl (List.forall_mem_nil _))
  refine ⟨hwords, b, hfiles.trans hb, (hlayered (some config) environment "A" " 2").1.mpr ?_,
    (hlayered (some config) environment "C" "c").1.mpr ?_, ?_⟩
  · exact Or.inl hlast
  · exact Or.inr ⟨hsilent, Or.inl hconfig⟩
  · exact (hagree (some config) environment (some { bindings := [("C", "c")] }) [("C", "e")]
      (agreeBeyond_cons hgiven "c" _) (agreeBeyond_cons hgiven "e" _)).2

end Command

end ImageLint
