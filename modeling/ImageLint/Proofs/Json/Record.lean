import ImageLint.Json.Record
import ImageLint.Proofs.Json.Respelling

/-!
# Reading respelled records

A record that is written with all its fields is read back from every value that says the same:
`Schema.ofJson_respelled` and `Schema.ofTree_respelled`. Reading leaves a field out only when its
absence stands for its value, so what a record is built from `Fills` it.

The tag of a tagged value is found wherever it stands, and the rest of the value is respelled like
the members besides the tag: `Variants.splitJson_respelled` and `Variants.splitTree_respelled`.
-/

namespace ImageLint.Json

variable {defaults : String → Option Json}

/-! ## Single values -/

/-- What is written by `encode` is read by `decode`, however it is respelled. -/
def Recovers {α : Type} (defaults : String → Option Json) (encode : α → Json)
    (decode : Json → Except ReadError α) : Prop :=
  ∀ a w, Respelled defaults (encode a) w → decode w = .ok a

namespace Recovers

variable {α : Type} {encode : α → Json}

theorem text : Recovers defaults .string Json.text := by
  intro s w h
  rw [h.eq_string]
  rfl

theorem treeText : Recovers defaults .string (fun w => (Tree.ofJson w).text) := by
  intro s w h
  rw [h.eq_string]
  rfl

theorem truth : Recovers defaults .bool Json.truth := by
  intro b w h
  rw [h.eq_bool]
  rfl

theorem unsigned : Recovers defaults (fun n => .nat n.toNat) Json.unsigned := by
  intro n w h
  rw [h.eq_nat, nat, Json.unsigned, Number.kind_ofNat]

theorem treeUnsigned :
    Recovers defaults (fun n => .nat n.toNat) (fun w => (Tree.ofJson w).unsigned) := by
  intro n w h
  rw [h.eq_nat]
  simp only [nat, Tree.ofJson, Tree.unsigned, Number.kind_ofNat]

theorem optional {decode : Json → Except ReadError α} (h : Recovers defaults encode decode)
    (present : ∀ a, encode a ≠ .null) :
    Recovers defaults (Json.option encode) (Json.optional decode) := by
  intro o w hw
  cases o with
  | none =>
    rw [hw.eq_null_iff.mpr rfl]
    rfl
  | some a =>
    have value : w ≠ .null := fun null => present a (hw.eq_null_iff.mp null)
    have read : decode w = .ok a := h a w hw
    cases w with
    | null => exact absurd rfl value
    | _ => simp only [Json.optional, read]; rfl

theorem treeOptional {decode : Tree → Except ReadError α}
    (h : Recovers defaults encode fun w => decode (Tree.ofJson w))
    (present : ∀ a, encode a ≠ .null) :
    Recovers defaults (Json.option encode) fun w => Tree.optional decode (Tree.ofJson w) := by
  have same : ∀ w, Tree.optional decode (Tree.ofJson w) =
      Json.optional (fun w => decode (Tree.ofJson w)) w := by
    intro w
    cases w <;> rfl
  intro o w hw
  exact (same w).trans (optional h present o w hw)

theorem mapM {decode : Json → Except ReadError α} (h : Recovers defaults encode decode)
    {as : List α} {ws : List Json}
    (hw : List.Forall₂ (Respelled defaults) (as.map encode) ws) : ws.mapM decode = .ok as := by
  induction as generalizing ws with
  | nil =>
    cases hw
    rfl
  | cons a as ih =>
    cases hw with
    | cons first others =>
      rw [List.mapM_cons, h a _ first, ih others]
      rfl

theorem list {decode : Json → Except ReadError α} (h : Recovers defaults encode decode) :
    Recovers defaults (fun as => .array (as.map encode)) (Json.list decode) := by
  intro as w hw
  cases hw with
  | array items => exact mapM h items

theorem treeList {decode : Tree → Except ReadError α}
    (h : Recovers defaults encode fun w => decode (Tree.ofJson w)) :
    Recovers defaults (fun as => .array (as.map encode))
      fun w => Tree.list decode (Tree.ofJson w) := by
  intro as w hw
  cases hw with
  | @array _ ws items =>
    have read : (ws.map Tree.ofJson).mapM decode = .ok as := by
      rw [List.mapM_map]
      exact mapM h items
    simp only [Tree.ofJson, Tree.ofItems_eq_map, Tree.list, read]
    rfl

end Recovers

/-! ## Records -/

namespace Schema

variable {F T : Type} {V : F → Type}

/-- Each field has a name of its own, and is declared once. -/
structure WellNamed (s : Schema F) : Prop where
  nodup : s.fields.Nodup
  field?_key : ∀ f, s.field? (s.key f) = some f

/-- The record that is written with all its fields, in the order of their declaration. -/
def written (s : Schema F) (encoded : F → Json) : Json :=
  .object (s.fields.map fun f => (s.key f, encoded f))

/-- The fields that are there hold their values; the absence of the others stands for theirs. -/
def Fills (defaults : String → Option Json) (s : Schema F) (value : (f : F) → V f)
    (encoded : F → Json) (p : Fields V) : Prop :=
  ∀ f, p f = some (value f) ∨ p f = none ∧ defaults (s.key f) = some (encoded f)

section Fills

variable {s : Schema F} {value : (f : F) → V f} {encoded : F → Json} {p : Fields V}

/-- A field whose absence does not stand for its value is there. -/
theorem Fills.need (h : s.Fills defaults value encoded p) {f : F}
    (required : defaults (s.key f) ≠ some (encoded f)) : p.need f = .ok (value f) := by
  rcases h f with there | ⟨-, stands⟩
  · rw [Fields.need, there]
  · exact absurd stands required

/-- A field whose absence is read as `d` holds its value, when `d` is what its absence stands
for. -/
theorem Fills.getD (h : s.Fills defaults value encoded p) {f : F} {d : V f}
    (default : defaults (s.key f) = some (encoded f) → value f = d) :
    (p f).getD d = value f := by
  rcases h f with there | ⟨absent, stands⟩
  · rw [there]
    rfl
  · rw [absent, default stands]
    rfl

end Fills

namespace WellNamed

variable {s : Schema F}

theorem mem_fields (h : s.WellNamed) (f : F) : f ∈ s.fields :=
  List.mem_of_find?_eq_some (h.field?_key f)

theorem filterMap_field?_keys (h : s.WellNamed) (fs : List F) :
    (fs.map s.key).filterMap s.field? = fs := by
  induction fs with
  | nil => rfl
  | cons f fs ih => rw [List.map_cons, List.filterMap_cons, h.field?_key, ih]

end WellNamed

section Members

variable {α : Type} {s : Schema F} {value : (f : F) → V f} {encoded : F → Json}

/-- The fields that are named by members, in the order of the members. -/
def namedFields (s : Schema F) (ns : List (String × Json)) : List F :=
  ns.filterMap fun n => s.field? n.1

theorem mem_namedFields {ns : List (String × Json)} {f : F} :
    f ∈ s.namedFields ns ↔ ∃ n ∈ ns, s.field? n.1 = some f := List.mem_filterMap

/-- A name that no written member has is the name of no field. -/
theorem field?_eq_none {name : String}
    (h : name ∉ (s.fields.map fun f => (s.key f, encoded f)).map Prod.fst) :
    s.field? name = none := by
  refine List.find?_eq_none.mpr fun f hf same => h ?_
  rw [List.map_map]
  exact List.mem_map.mpr ⟨f, hf, of_decide_eq_true same⟩

variable {R : Json → Json → Prop} {ks : List (String × Json)}

/-- What is kept of a record are fields. -/
theorem WellNamed.field?_of_kept (h : s.WellNamed)
    (kept : Kept defaults R (s.fields.map fun f => (s.key f, encoded f)) ks) {k : String × Json}
    (hk : k ∈ ks) : ∃ f, s.field? k.1 = some f ∧ R (encoded f) k.2 := by
  obtain ⟨v, hv, hvw⟩ := kept.exists_of_mem hk
  obtain ⟨f, -, same⟩ := List.mem_map.mp hv
  obtain ⟨name, rfl⟩ := Prod.mk.inj same
  exact ⟨f, name ▸ h.field?_key f, hvw⟩

/-- The members that are kept of a record name each field at most once. -/
theorem WellNamed.nodup_namedFields (h : s.WellNamed)
    (kept : Kept defaults R (s.fields.map fun f => (s.key f, encoded f)) ks) :
    (s.namedFields ks).Nodup := by
  have names : s.namedFields ks = (ks.map Prod.fst).filterMap s.field? := by
    rw [List.filterMap_map]
    rfl
  have sub := kept.names_sublist.filterMap s.field?
  rw [List.map_map, ← names] at sub
  exact (h.filterMap_field?_keys s.fields ▸ sub).nodup h.nodup

variable [DecidableEq F]

/-- Members that name no field twice, and of which each can be read, give the fields that they
name. -/
theorem collectMembers_ok {embed : Json → α} {pass : α → Except ReadError Unit}
    {decode : (f : F) → α → Except ReadError (V f)} {ns : List (String × Json)} {p : Fields V}
    (passed : ∀ n ∈ ns, s.field? n.1 = none → pass (embed n.2) = .ok ())
    (decoded : ∀ n ∈ ns, ∀ f, s.field? n.1 = some f → decode f (embed n.2) = .ok (value f))
    (once : (s.namedFields ns).Nodup) (fresh : ∀ f ∈ s.namedFields ns, p f = none) :
    s.collectMembers pass decode (ns.map fun n => (some n.1, embed n.2)) p =
      .ok fun f => if f ∈ s.namedFields ns then some (value f) else p f := by
  induction ns generalizing p with
  | nil => simp [collectMembers, namedFields]
  | cons n ns ih =>
    have passed' := fun m hm => passed m (List.mem_cons_of_mem n hm)
    have decoded' := fun m hm => decoded m (List.mem_cons_of_mem n hm)
    rw [List.map_cons, collectMembers]
    cases known : s.field? n.1 with
    | none =>
      have same : s.namedFields (n :: ns) = s.namedFields ns := by simp [namedFields, known]
      rw [same] at once fresh ⊢
      simp only [passed n List.mem_cons_self known]
      exact ih passed' decoded' once fresh
    | some f =>
      have more : s.namedFields (n :: ns) = f :: s.namedFields ns := by
        simp [namedFields, known]
      rw [more] at once fresh ⊢
      obtain ⟨new, once'⟩ := List.nodup_cons.mp once
      have fresh' : ∀ g ∈ s.namedFields ns, p.set f (value f) g = none := by
        intro g hg
        have other : f ≠ g := fun same => new (same ▸ hg)
        rw [Fields.set_other p (value f) other]
        exact fresh g (List.mem_cons_of_mem f hg)
      have unread : (p f).isSome = false := by rw [fresh f List.mem_cons_self, Option.isSome_none]
      simp only [unread, decoded n List.mem_cons_self f known]
      refine (ih passed' decoded' once' fresh').trans (congrArg Except.ok (funext fun g => ?_))
      by_cases same : f = g
      · subst same
        simp [new]
      · have other : g ≠ f := fun h => same h.symm
        simp [Fields.set_other p (value f) same, other]

/-- What is collected from a record that is respelled fills the record. -/
theorem WellNamed.collectMembers_respelled (h : s.WellNamed) (embed : Json → α)
    (pass : α → Except ReadError Unit) (decode : (f : F) → α → Except ReadError (V f))
    (passed : ∀ v, Plain v → pass (embed v) = .ok ())
    (decoded : ∀ f w, Respelled defaults (encoded f) w → decode f (embed w) = .ok (value f))
    {ns : List (String × Json)} (respelled : Respelled defaults (s.written encoded) (.object ns)) :
    ∃ p, s.collectMembers pass decode (ns.map fun n => (some n.1, embed n.2)) .empty = .ok p ∧
      s.Fills defaults value encoded p := by
  cases respelled with
  | @object _ ks es _ kept extra perm =>
    have unknown : ∀ e ∈ es, s.field? e.1 = none := fun e he => field?_eq_none (extra e he).1
    have fields : (s.namedFields ns).Perm (s.namedFields ks) := by
      have none_of_es : s.namedFields es = [] := List.filterMap_eq_nil_iff.mpr unknown
      have split : (s.namedFields ns).Perm (s.namedFields ks ++ s.namedFields es) := by
        simpa [namedFields] using perm.filterMap fun n => s.field? n.1
      rwa [none_of_es, List.append_nil] at split
    have passed' : ∀ n ∈ ns, s.field? n.1 = none → pass (embed n.2) = .ok () := by
      intro n hn none
      rcases List.mem_append.mp (perm.mem_iff.mp hn) with hk | he
      · obtain ⟨f, some, -⟩ := h.field?_of_kept kept hk
        rw [none] at some
        cases some
      · exact passed n.2 (extra n he).2
    have decoded' : ∀ n ∈ ns, ∀ f, s.field? n.1 = some f →
        decode f (embed n.2) = .ok (value f) := by
      intro n hn f some
      rcases List.mem_append.mp (perm.mem_iff.mp hn) with hk | he
      · obtain ⟨g, known, hgn⟩ := h.field?_of_kept kept hk
        cases known.symm.trans some
        exact decoded f n.2 hgn
      · rw [unknown n he] at some
        cases some
    have once : (s.namedFields ns).Nodup := fields.nodup_iff.mpr (h.nodup_namedFields kept)
    refine ⟨_, collectMembers_ok passed' decoded' once fun f _ => rfl, fun f => ?_⟩
    by_cases named : f ∈ s.namedFields ns
    · exact .inl (if_pos named)
    · refine .inr ⟨if_neg named, ?_⟩
      have member : (s.key f, encoded f) ∈ s.fields.map fun f => (s.key f, encoded f) :=
        List.mem_map.mpr ⟨f, h.mem_fields f, rfl⟩
      refine (kept.kept_or_default member).resolve_left ?_
      rintro ⟨w, hw⟩
      exact named (fields.mem_iff.mpr (mem_namedFields.mpr ⟨_, hw, h.field?_key f⟩))

end Members

section Records

variable [DecidableEq F] {s : Schema F} {value : (f : F) → V f} {encoded : F → Json}
  {build : Fields V → Except F T} {record : T}

/-- A record is read from every value that says the same, when it is built from what fills it. -/
theorem ofJson_respelled (h : s.WellNamed) {decode : (f : F) → Json → Except ReadError (V f)}
    (decoded : ∀ f w, Respelled defaults (encoded f) w → decode f w = .ok (value f))
    (built : ∀ p, s.Fills defaults value encoded p → build p = .ok record) {w : Json}
    (hw : Respelled defaults (s.written encoded) w) : s.ofJson decode build w = .ok record := by
  cases w with
  | object ns =>
    obtain ⟨p, collected, fills⟩ :=
      h.collectMembers_respelled id (fun _ => .ok ()) decode (fun _ _ => rfl) decoded hw
    have finished : s.finishObject build p = .ok record := by rw [finishObject, built p fills]
    simp only [id] at collected
    simp only [Schema.ofJson, collected]
    exact finished
  | _ => cases hw

/-- A record is read from the text of every value that says the same. -/
theorem ofTree_respelled (h : s.WellNamed) {decode : (f : F) → Tree → Except ReadError (V f)}
    (decoded : ∀ f w, Respelled defaults (encoded f) w →
      decode f (Tree.ofJson w) = .ok (value f))
    (built : ∀ p, s.Fills defaults value encoded p → build p = .ok record) {w : Json}
    (hw : Respelled defaults (s.written encoded) w) :
    s.ofTree decode build (Tree.ofJson w) = .ok record := by
  cases w with
  | object ns =>
    have passed : ∀ v, Plain v → (Tree.ofJson v).skip.mapError ReadError.fault = .ok () :=
      fun v _ => by
        rw [Tree.skip_ofJson]
        rfl
    obtain ⟨p, collected, fills⟩ := h.collectMembers_respelled Tree.ofJson
      (fun t => t.skip.mapError .fault) decode passed decoded hw
    have finished : s.finishObject build p = .ok record := by rw [finishObject, built p fills]
    simp only [Tree.ofJson, Tree.ofMembers_eq_map, Schema.ofTree, collected]
    exact finished
  | _ => cases hw

end Records

end Schema

/-! ## Tagged values -/

section Tagged

variable {α τ : Type} {embed : Json → α} {readTag : α → Except ReadError τ}
  {readValue : α → Except ReadError Json}

theorem splitMembers_untagged {ns : List (String × Json)}
    (whole : ∀ n ∈ ns, readValue (embed n.2) = .ok n.2) (untagged : ∀ n ∈ ns, n.1 ≠ tagName)
    (tag : Option τ) :
    splitMembers readTag readValue (ns.map fun n => (some n.1, embed n.2)) tag =
      .ok (tag, ns) := by
  induction ns with
  | nil => rfl
  | cons n ns ih =>
    have rest := ih (fun m hm => whole m (List.mem_cons_of_mem n hm))
      fun m hm => untagged m (List.mem_cons_of_mem n hm)
    rw [List.map_cons, splitMembers, if_neg (untagged n List.mem_cons_self),
      whole n List.mem_cons_self, rest]
    rfl

/-- The tag is taken out of the members wherever it stands. -/
theorem splitMembers_tagged (embed : Json → α) (readValue : α → Except ReadError Json)
    {front back : List (String × Json)} {v : Json} {t : τ} (tag : readTag (embed v) = .ok t)
    (whole : ∀ n ∈ front ++ back, readValue (embed n.2) = .ok n.2)
    (untagged : ∀ n ∈ front ++ back, n.1 ≠ tagName) :
    splitMembers readTag readValue
        ((front ++ (tagName, v) :: back).map fun n => (some n.1, embed n.2)) none =
      .ok (some t, front ++ back) := by
  induction front with
  | nil =>
    rw [List.nil_append, List.map_cons, splitMembers, if_pos rfl, tag]
    exact splitMembers_untagged whole untagged (some t)
  | cons n front ih =>
    have rest := ih (fun m hm => whole m (List.mem_cons_of_mem n hm))
      fun m hm => untagged m (List.mem_cons_of_mem n hm)
    rw [List.cons_append, List.map_cons, splitMembers, if_neg (untagged n List.mem_cons_self),
      whole n List.mem_cons_self, rest]
    rfl

/-- A tagged object keeps its tag, and without it is respelled like the members besides the tag. -/
theorem Respelled.untag {k : String} {ms ns : List (String × Json)}
    (required : defaults tagName = none) (untagged : tagName ∉ ms.map Prod.fst)
    (h : Respelled defaults (.object ((tagName, .string k) :: ms)) (.object ns)) :
    ∃ front back, ns = front ++ (tagName, .string k) :: back ∧
      (∀ n ∈ front ++ back, n.1 ≠ tagName) ∧
      Respelled defaults (.object ms) (.object (front ++ back)) := by
  cases h with
  | @object _ ks es _ kept extra perm =>
    cases kept with
    | drop absent =>
      rw [required] at absent
      cases absent
    | @keep _ _ w _ ks tag kept =>
      cases tag.eq_string
      have mem : (tagName, Json.string k) ∈ ns :=
        perm.mem_iff.mpr (List.mem_append_left es List.mem_cons_self)
      obtain ⟨front, back, rfl⟩ := List.append_of_mem mem
      have rest : (front ++ back).Perm (ks ++ es) :=
        (List.perm_middle.symm.trans perm).cons_inv
      refine ⟨front, back, rfl, ?_, .object kept ?_ rest⟩
      · intro n hn same
        rcases List.mem_append.mp (rest.mem_iff.mp hn) with hk | he
        · obtain ⟨v, hv, -⟩ := kept.exists_of_mem hk
          exact untagged (List.mem_map.mpr ⟨_, hv, same⟩)
        · exact (extra n he).1 (by rw [same]; exact List.mem_cons_self)
      · intro e he
        obtain ⟨new, plain⟩ := extra e he
        exact ⟨fun old => new (List.mem_cons_of_mem _ old), plain⟩

variable (variants : Variants τ) (name : String) {k : String} {t : τ}
  {ms : List (String × Json)} {w : Json}

/-- A respelled tagged value is split into its variant and the members besides the tag. -/
theorem Variants.splitJson_respelled (known : variants.lookup k = some t)
    (required : defaults tagName = none) (untagged : tagName ∉ ms.map Prod.fst)
    (h : Respelled defaults (.object ((tagName, .string k) :: ms)) w) :
    ∃ body, variants.splitJson name w = .ok (t, body) ∧ Respelled defaults (.object ms) body := by
  cases w with
  | object ns =>
    obtain ⟨front, back, rfl, others, rest⟩ := h.untag required untagged
    refine ⟨_, ?_, rest⟩
    have tag : variants.ofJson (.string k) = .ok t := by rw [Variants.ofJson, named, known]
    have split := splitMembers_tagged id .ok tag (fun _ _ => rfl) others
    simp only [id] at split
    simp only [Variants.splitJson, split]
    rfl
  | _ => cases h

/-- The text of a respelled tagged value is split likewise, when the value is legible. -/
theorem Variants.splitTree_respelled {depth : Nat} (known : variants.lookup k = some t)
    (required : defaults tagName = none) (untagged : tagName ∉ ms.map Prod.fst)
    (h : Respelled defaults (.object ((tagName, .string k) :: ms)) w)
    (legible : Legible (depth + 1) w) :
    ∃ body, variants.splitTree name (depth + 1) (Tree.ofJson w) = .ok (t, body) ∧
      Respelled defaults (.object ms) body := by
  cases w with
  | object ns =>
    obtain ⟨front, back, rfl, others, rest⟩ := h.untag required untagged
    refine ⟨_, ?_, rest⟩
    have tag : variants.ofTree (Tree.ofJson (.string k)) = .ok t := by
      rw [Tree.ofJson, Variants.ofTree, named, known]
    have whole : ∀ n ∈ front ++ back,
        ((Tree.ofJson n.2).value depth).mapError ReadError.fault = .ok n.2 := by
      intro n hn
      have member : n ∈ front ++ (tagName, .string k) :: back := by
        rcases List.mem_append.mp hn with hf | hb
        · exact List.mem_append_left _ hf
        · exact List.mem_append_right _ (List.mem_cons_of_mem _ hb)
      rw [Tree.value_ofJson (legible n member)]
      rfl
    have split := splitMembers_tagged Tree.ofJson (fun t => (t.value depth).mapError .fault)
      tag whole others
    simp only [Tree.ofJson, Tree.ofMembers_eq_map, Variants.splitTree, Nat.add_sub_cancel, split]
    rfl
  | _ => cases h

end Tagged

end ImageLint.Json
