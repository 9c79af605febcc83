import ImageLint.Proofs.Loader.Run
import Mathlib.Data.List.Destutter

/-!
# Loads that race with changes

A load reads the time of its artifact and runs the rest under the lock of the loader. Other loads
and changes of the artifact may come between the two, and the load then goes by a time that is gone.

A race is about one artifact. Beside the loader it keeps a record of the times that the artifact has
had, of the times by which the sections under the lock went, and of the times by which the artifact
was opened. The openings turn out to be the sections without repetitions of neighbours. Hence no time
leads to two openings exactly if no section comes back to a time that another section has replaced.
That can happen: a load that is late puts an old time in the place of a new one, and the next load
finds the new time changed.

* `recorded_after`: the entry and the openings are told by the sections.
* `orderly_after`: nothing comes back when sections are run in turn.
* `openings_in_race`: how often the artifact is opened.
* `late_load_opens_again`: one change, and three openings.
-/

namespace ImageLint

open Host

namespace Loader

/-- The next thing to happen while callers load one artifact. -/
inductive Move where
  /-- A caller reads the time of the artifact. -/
  | read
  /-- The caller at a place among those that have read runs its section under the lock. -/
  | enter (n : Nat) (opener : Opener)
  /-- The host changes. -/
  | change (files : FileSystem)

namespace Move

def isChange : Move → Bool
  | .change _ => true
  | _ => false

/-- Whether a section is run by the caller who has waited longest. -/
def InTurn : Move → Prop
  | .enter n _ => n = 0
  | _ => True

end Move

/-- A loader, and the callers who load one artifact. -/
structure Race where
  files : FileSystem
  loader : Loader
  /-- The times with which callers wait for the lock, the first to have read first. -/
  waiting : List (Option Int)
  /-- The times that the artifact has had, the latest first. -/
  times : List (Option Int)
  /-- The times by which sections under the lock went, the latest first. -/
  sections : List (Option Int)
  /-- The times by which the artifact was opened, the latest first. -/
  openedAt : List (Option Int)

/-! ## Lists without repetitions of neighbours -/

theorem destutter_cons_of_head {t : Option Int} {l : List (Option Int)} (h : l.head? = some t) :
    (t :: l).destutter (· ≠ ·) = l.destutter (· ≠ ·) := by
  cases l with
  | nil => cases h
  | cons b l =>
    obtain rfl : b = t := Option.some.inj h
    exact List.destutter_cons_cons l _ |>.trans (if_neg (not_not_intro rfl))

theorem destutter_cons_of_ne_head {t : Option Int} {l : List (Option Int)}
    (h : l.head? ≠ some t) : (t :: l).destutter (· ≠ ·) = t :: l.destutter (· ≠ ·) := by
  cases l with
  | nil => rfl
  | cons b l =>
    have hne : t ≠ b := fun ht => h (congrArg some ht.symm)
    exact List.destutter_cons_cons l _ |>.trans (if_pos hne)

theorem mem_destutter_iff {t : Option Int} {l : List (Option Int)} :
    t ∈ l.destutter (· ≠ ·) ↔ t ∈ l := by
  induction l with
  | nil => rfl
  | cons b l ih =>
    by_cases h : l.head? = some b
    · rw [destutter_cons_of_head h, ih, List.mem_cons]
      refine ⟨Or.inr, ?_⟩
      rintro (rfl | ht)
      · exact List.mem_of_mem_head? h
      · exact ht
    · rw [destutter_cons_of_ne_head h, List.mem_cons, ih, List.mem_cons]

/-- Nothing comes back: a time is seen again only as long as no other time has been seen since. -/
def Settled : List (Option Int) → Prop
  | [] => True
  | t :: earlier => (t ∈ earlier → earlier.head? = some t) ∧ Settled earlier

theorem nodup_destutter_iff {l : List (Option Int)} :
    (l.destutter (· ≠ ·)).Nodup ↔ Settled l := by
  induction l with
  | nil => exact iff_of_true List.nodup_nil trivial
  | cons t l ih =>
    unfold Settled
    by_cases h : l.head? = some t
    · rw [destutter_cons_of_head h, ih]
      exact ⟨fun hl => ⟨fun _ => h, hl⟩, fun hl => hl.2⟩
    · rw [destutter_cons_of_ne_head h, List.nodup_cons, mem_destutter_iff, ih]
      exact and_congr_left fun _ => ⟨fun hn ht => absurd ht hn, fun hh ht => h (hh ht)⟩

theorem settled_of_append {l m : List (Option Int)} (h : Settled (l ++ m)) : Settled m := by
  induction l with
  | nil => exact h
  | cons t l ih => exact ih h.2

namespace Race

variable (key : NormalPath)

def start (files : FileSystem) : Race where
  files
  loader := .empty
  waiting := []
  times := [files.modified? key.text]
  sections := []
  openedAt := []

/-- What a section does when it goes by a time. -/
def runSection (r : Race) (opener : Opener) (stamp : Option Int) : Race :=
  let l := (r.loader.loadStamped opener (r.files.isPresent key.text) key stamp).loader
  { r with
    loader := l
    sections := stamp :: r.sections
    openedAt :=
      List.replicate (l.openings.length - r.loader.openings.length) stamp ++ r.openedAt }

def move (r : Race) : Move → Race
  | .read => { r with waiting := r.waiting ++ [r.files.modified? key.text] }
  | .enter n opener =>
    match r.waiting[n]? with
    | some stamp => { r.runSection key opener stamp with waiting := r.waiting.eraseIdx n }
    | none => r
  | .change files => { r with files, times := files.modified? key.text :: r.times }

/-- A race after the moves of a run, the latest first. -/
def after (files : FileSystem) : List Move → Race
  | [] => start key files
  | m :: earlier => (after files earlier).move key m

/-- Reading and then running the section is a load. -/
theorem loader_read_enter (r : Race) (opener : Opener) (path : String) :
    let key := normalize r.files.workingDirectory path
    ((r.move key .read).move key (.enter r.waiting.length opener)).loader =
      (r.loader.load r.files opener path).loader := by
  simp only [move, List.getElem?_concat_length]
  rfl

/-- A section is run with a time of those that callers wait with, or there is no such caller. -/
theorem move_enter_cases (r : Race) (n : Nat) (opener : Opener) :
    (∃ stamp, r.waiting[n]? = some stamp ∧
      r.move key (.enter n opener) =
        { r.runSection key opener stamp with waiting := r.waiting.eraseIdx n }) ∨
      r.move key (.enter n opener) = r := by
  unfold move
  cases hn : r.waiting[n]? with
  | none => exact Or.inr (by simp only [hn])
  | some stamp => exact Or.inl ⟨stamp, rfl, by simp only [hn]⟩

/-! ## Times -/

variable {key} {r : Race}

theorem times_move (m : Move) :
    (r.move key m).times =
      if m.isChange then (r.move key m).files.modified? key.text :: r.times else r.times := by
  cases m with
  | read => rfl
  | enter n opener =>
    rcases move_enter_cases key r n opener with ⟨stamp, -, h⟩ | h <;> rw [h] <;> rfl
  | change files => rfl

theorem times_suffix_move (m : Move) : r.times <:+ (r.move key m).times := by
  rw [times_move]
  split
  · exact List.suffix_cons _ _
  · exact List.suffix_rfl

theorem length_times_after (files : FileSystem) (run : List Move) :
    (after key files run).times.length = 1 + run.countP Move.isChange := by
  induction run with
  | nil => rfl
  | cons m earlier ih =>
    rw [after, times_move, List.countP_cons]
    split
    · rw [List.length_cons, ih, Nat.add_assoc]
    · exact ih

variable (key) in
/-- Callers go by times that the artifact has had. -/
structure Dated (r : Race) : Prop where
  now : r.times.head? = some (r.files.modified? key.text)
  waiting : ∀ t ∈ r.waiting, t ∈ r.times
  sections : ∀ t ∈ r.sections, t ∈ r.times

theorem dated_move (hr : Dated key r) (m : Move) : Dated key (r.move key m) := by
  cases m with
  | read =>
    refine ⟨hr.now, ?_, hr.sections⟩
    intro t ht
    rcases List.mem_append.mp ht with ht | ht
    · exact hr.waiting t ht
    · obtain rfl := List.mem_singleton.mp ht
      exact List.mem_of_mem_head? hr.now
  | enter n opener =>
    rcases move_enter_cases key r n opener with ⟨stamp, hn, h⟩ | h
    · rw [h]
      refine ⟨hr.now, fun t ht => hr.waiting t (List.mem_of_mem_eraseIdx ht), ?_⟩
      intro t ht
      rcases List.mem_cons.mp ht with rfl | ht
      · exact hr.waiting t (List.mem_of_getElem? hn)
      · exact hr.sections t ht
    · rw [h]
      exact hr
  | change files =>
    exact ⟨rfl, fun t ht => List.mem_cons_of_mem _ (hr.waiting t ht),
      fun t ht => List.mem_cons_of_mem _ (hr.sections t ht)⟩

theorem dated_after (files : FileSystem) (run : List Move) : Dated key (after key files run) := by
  induction run with
  | nil => exact ⟨rfl, List.forall_mem_nil _, List.forall_mem_nil _⟩
  | cons m earlier ih => exact dated_move ih m

/-! ## Openings -/

variable (key) in
/-- What is remembered and what was opened is told by the sections. -/
structure Recorded (r : Race) : Prop where
  entry : (r.loader.entry? key).map (·.stamp) = r.sections.head?
  openings : r.loader.openings = List.replicate r.openedAt.length key
  openedAt : r.openedAt = r.sections.destutter (· ≠ ·)

theorem Recorded.isHit_iff (hr : Recorded key r) (stamp : Option Int) :
    r.loader.IsHit key stamp ↔ r.sections.head? = some stamp := by
  rw [← hr.entry, Option.map_eq_some_iff]
  rfl

variable (opener : Opener) {stamp : Option Int}

theorem openedAt_runSection : (r.runSection key opener stamp).openedAt =
    List.replicate ((r.runSection key opener stamp).loader.openings.length -
      r.loader.openings.length) stamp ++ r.openedAt := rfl

theorem entry?_runSection :
    ((r.runSection key opener stamp).loader.entry? key).map (·.stamp) = some stamp := by
  unfold runSection
  rw [entry?_loadStamped, if_pos rfl]
  rfl

theorem openings_runSection_hit (hit : r.loader.IsHit key stamp) :
    (r.runSection key opener stamp).loader.openings = r.loader.openings := by
  obtain ⟨e, he, hs⟩ := hit
  unfold runSection
  rw [loadStamped_hit _ _ _ _ _ he hs]
  exact openings_retain _ _

/-- An artifact that has a time is there, and is opened. -/
theorem openings_runSection_miss (miss : ¬ r.loader.IsHit key stamp) (hs : stamp.isSome) :
    (r.runSection key opener stamp).loader.openings = r.loader.openings ++ [key] := by
  obtain ⟨time, rfl⟩ := Option.isSome_iff_exists.mp hs
  exact openings_miss _ _ _ _ _ miss

theorem recorded_runSection (hr : Recorded key r) (hs : stamp.isSome) :
    Recorded key (r.runSection key opener stamp) := by
  by_cases hit : r.loader.IsHit key stamp
  · have hopenings := openings_runSection_hit opener hit
    have hopened : (r.runSection key opener stamp).openedAt = r.openedAt := by
      rw [openedAt_runSection, hopenings, Nat.sub_self]
      rfl
    refine ⟨entry?_runSection opener, ?_, ?_⟩
    · rw [hopenings, hopened]
      exact hr.openings
    · rw [hopened, hr.openedAt]
      exact (destutter_cons_of_head ((hr.isHit_iff stamp).mp hit)).symm
  · have hopenings := openings_runSection_miss opener hit hs
    have hopened : (r.runSection key opener stamp).openedAt = stamp :: r.openedAt := by
      rw [openedAt_runSection, hopenings, List.length_append, Nat.add_sub_cancel_left]
      rfl
    refine ⟨entry?_runSection opener, ?_, ?_⟩
    · rw [hopenings, hopened, hr.openings]
      exact List.replicate_succ'.symm
    · rw [hopened, hr.openedAt]
      exact (destutter_cons_of_ne_head (mt (hr.isHit_iff stamp).mpr hit)).symm

theorem recorded_move (hr : Recorded key r) (hd : Dated key r) (hpresent : ∀ t ∈ r.times, t.isSome)
    (m : Move) : Recorded key (r.move key m) := by
  cases m with
  | read => exact ⟨hr.entry, hr.openings, hr.openedAt⟩
  | enter n opener =>
    rcases move_enter_cases key r n opener with ⟨stamp, hn, h⟩ | h
    · rw [h]
      have hs : stamp.isSome := hpresent _ (hd.waiting _ (List.mem_of_getElem? hn))
      have hsection := recorded_runSection opener hr hs
      exact ⟨hsection.entry, hsection.openings, hsection.openedAt⟩
    · rw [h]
      exact hr
  | change files => exact ⟨hr.entry, hr.openings, hr.openedAt⟩

theorem recorded_after (files : FileSystem) (run : List Move)
    (hpresent : ∀ t ∈ (after key files run).times, t.isSome) :
    Recorded key (after key files run) := by
  induction run with
  | nil => exact ⟨rfl, rfl, rfl⟩
  | cons m earlier ih =>
    have hearlier : ∀ t ∈ (after key files earlier).times, t.isSome :=
      fun t ht => hpresent t ((times_suffix_move m).subset ht)
    exact recorded_move (ih hearlier) (dated_after files earlier) hearlier m

/-! ## Sections in turn -/

/-- The times that callers have read, the latest first, as long as sections are run in turn. -/
def readings (r : Race) : List (Option Int) := r.waiting.reverse ++ r.sections

variable (key) in
/-- The readings are settled, and stay so when the artifact is read next. -/
def Orderly (r : Race) : Prop := Settled (r.files.modified? key.text :: r.readings)

theorem readings_enter {stamp : Option Int} (hn : r.waiting[0]? = some stamp) :
    ({ r.runSection key opener stamp with waiting := r.waiting.eraseIdx 0 } : Race).readings =
      r.readings := by
  obtain ⟨rest, hwaiting⟩ : ∃ rest, r.waiting = stamp :: rest := by
    cases hw : r.waiting with
    | nil => rw [hw] at hn; cases hn
    | cons t rest =>
      rw [hw] at hn
      exact ⟨rest, by rw [Option.some.inj hn]⟩
  simp only [readings, runSection, hwaiting, List.eraseIdx_cons_zero, List.reverse_cons,
    List.append_assoc, List.cons_append, List.nil_append]

theorem orderly_move (hr : Orderly key r) (hd : Dated key r) {m : Move}
    (hdistinct : (r.move key m).times.Nodup) (hturn : m.InTurn) : Orderly key (r.move key m) := by
  cases m with
  | read =>
    have hread : (r.move key .read).readings = r.files.modified? key.text :: r.readings := by
      simp only [readings, move, List.reverse_concat, List.cons_append]
    unfold Orderly
    rw [hread]
    exact ⟨fun _ => rfl, hr⟩
  | enter n opener =>
    obtain rfl : n = 0 := hturn
    rcases move_enter_cases key r 0 opener with ⟨stamp, hn, h⟩ | h
    · rw [h]
      unfold Orderly
      rw [readings_enter opener hn]
      exact hr
    · rw [h]
      exact hr
  | change files =>
    -- No caller can have read a time that the artifact has never had.
    have hnew := (List.nodup_cons.mp hdistinct).1
    refine ⟨fun ht => absurd ?_ hnew, hr.2⟩
    rcases List.mem_append.mp ht with ht | ht
    · exact hd.waiting _ (List.mem_reverse.mp ht)
    · exact hd.sections _ ht

theorem orderly_after (files : FileSystem) (run : List Move)
    (hdistinct : (after key files run).times.Nodup) (hturn : ∀ m ∈ run, m.InTurn) :
    Orderly key (after key files run) := by
  induction run with
  | nil => exact ⟨fun h => absurd h List.not_mem_nil, trivial⟩
  | cons m earlier ih =>
    have hearlier := hdistinct.sublist (times_suffix_move m).sublist
    have hr := ih hearlier fun m' hm' => hturn m' (List.mem_cons_of_mem _ hm')
    exact orderly_move hr (dated_after files earlier) hdistinct (hturn m List.mem_cons_self)

/-- **Openings in a race.** The artifact is opened once for each section that does not repeat the
time of the section before it. So it is opened at most once for each time that it has had, and at
most once more often than it changes, exactly if no section comes back to a time that another section
has replaced; and this is so when sections are run in the order in which the times were read. -/
theorem openings_in_race (key : NormalPath) (files : FileSystem) (run : List Move)
    (hpresent : ∀ t ∈ (after key files run).times, t.isSome)
    (hdistinct : (after key files run).times.Nodup) :
    let r := after key files run
    r.loader.openings = List.replicate r.openedAt.length key ∧
      r.openedAt = r.sections.destutter (· ≠ ·) ∧
      (((∀ t, r.openedAt.count t ≤ 1) ∧
          r.loader.openings.length ≤ 1 + run.countP Move.isChange) ↔ Settled r.sections) ∧
      ((∀ m ∈ run, m.InTurn) → Settled r.sections) := by
  have hr := recorded_after files run hpresent
  have hopened : (after key files run).openedAt.Nodup ↔ Settled (after key files run).sections := by
    rw [hr.openedAt]
    exact nodup_destutter_iff
  refine ⟨hr.openings, hr.openedAt, ⟨?_, ?_⟩, ?_⟩
  · rintro ⟨honce, -⟩
    exact hopened.mp (List.nodup_iff_count_le_one.mpr honce)
  · intro hsettled
    have hnodup := hopened.mpr hsettled
    have hseen : (after key files run).openedAt ⊆ (after key files run).times := by
      intro t ht
      rw [hr.openedAt, mem_destutter_iff] at ht
      exact (dated_after files run).sections t ht
    refine ⟨List.nodup_iff_count_le_one.mp hnodup, ?_⟩
    rw [hr.openings, List.length_replicate, ← length_times_after files run]
    exact hnodup.length_le_of_subset hseen
  · intro hturn
    exact settled_of_append (orderly_after files run hdistinct hturn).2

/-! ## A load that is late -/

def unreadable : Opener := fun key => .error (.unreadable key "")

/-- Two callers read the time, one before a change and the other after it, and run their sections in
that order. -/
def inTurn : List Move :=
  [.enter 0 unreadable, .enter 0 unreadable, .read, .change (oneFile 1), .read]

theorem times_inTurn : (after ⟨["v"]⟩ (oneFile 0) inTurn).times = [some 1, some 0] := by
  rw [← modified?_oneFile 1, ← modified?_oneFile 0]
  rfl

theorem openings_in_race_in_turn :
    (∀ t ∈ (after ⟨["v"]⟩ (oneFile 0) inTurn).times, t.isSome) ∧
      (after ⟨["v"]⟩ (oneFile 0) inTurn).times.Nodup ∧
      (∀ t, (after ⟨["v"]⟩ (oneFile 0) inTurn).openedAt.count t ≤ 1) ∧
      (after ⟨["v"]⟩ (oneFile 0) inTurn).loader.openings.length ≤
        1 + inTurn.countP Move.isChange := by
  have hpresent : ∀ t ∈ (after ⟨["v"]⟩ (oneFile 0) inTurn).times, t.isSome := by
    rw [times_inTurn]
    decide
  have hdistinct : (after ⟨["v"]⟩ (oneFile 0) inTurn).times.Nodup := by
    rw [times_inTurn]
    decide
  have hturn : ∀ m ∈ inTurn, m.InTurn := by
    simp [inTurn, Move.InTurn]
  obtain ⟨-, -, honce, hsettled⟩ :=
    openings_in_race ⟨["v"]⟩ (oneFile 0) inTurn hpresent hdistinct
  exact ⟨hpresent, hdistinct, honce.mpr (hsettled hturn)⟩

/-- The second of the two callers is faster, and a third reads and runs a section when both are
done. -/
def overtaken : List Move :=
  [.enter 0 unreadable, .read, .enter 0 unreadable, .enter 1 unreadable, .read,
    .change (oneFile 1), .read]

theorem times_overtaken : (after ⟨["v"]⟩ (oneFile 0) overtaken).times = [some 1, some 0] := by
  rw [← modified?_oneFile 1, ← modified?_oneFile 0]
  rfl

theorem sections_overtaken :
    (after ⟨["v"]⟩ (oneFile 0) overtaken).sections = [some 1, some 0, some 1] := by
  rw [← modified?_oneFile 1, ← modified?_oneFile 0]
  rfl

/-- An artifact that changes once is opened three times, and twice with the same time. -/
theorem late_load_opens_again :
    (∀ t ∈ (after ⟨["v"]⟩ (oneFile 0) overtaken).times, t.isSome) ∧
      (after ⟨["v"]⟩ (oneFile 0) overtaken).times.Nodup ∧
      overtaken.countP Move.isChange = 1 ∧
      (after ⟨["v"]⟩ (oneFile 0) overtaken).openedAt.count (some 1) = 2 ∧
      (after ⟨["v"]⟩ (oneFile 0) overtaken).loader.openings.length = 3 := by
  have hpresent : ∀ t ∈ (after ⟨["v"]⟩ (oneFile 0) overtaken).times, t.isSome := by
    rw [times_overtaken]
    decide
  have hr := recorded_after (oneFile 0) overtaken hpresent
  have hopened : (after ⟨["v"]⟩ (oneFile 0) overtaken).openedAt = [some 1, some 0, some 1] := by
    rw [hr.openedAt, sections_overtaken]
    decide
  refine ⟨hpresent, ?_, rfl, ?_, ?_⟩
  · rw [times_overtaken]
    decide
  · rw [hopened]
    decide
  · rw [hr.openings, hopened]
    rfl

end Race

end Loader

end ImageLint
