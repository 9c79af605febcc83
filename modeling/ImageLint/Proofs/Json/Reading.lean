import ImageLint.Json.Tree
import ImageLint.Proofs.Json.Spelling

/-!
# Reading back what is written

The tokens of a value are read as its tree, and the tree of a legible value has that value. So the
compact and the indented text of a legible value are read as the value.
-/

namespace ImageLint.Json

namespace Number

/-- A negative integer of 64 bits is read as itself. -/
theorem kind_ofInt_of_neg {i : Int} (minus : i < 0) (lower : i.natAbs ≤ Nat.pow 2 63) :
    (ofInt i).kind = some (.negative i.natAbs) := by
  have sign : (ofInt i).negative = true := decide_eq_true minus
  have positive : 0 < i.natAbs := by omega
  have whole : (ofInt i).whole = i.natAbs := rfl
  have integer : (ofInt i).isInteger = true := rfl
  rw [kind, sign, integer, whole]
  simp [positive, lower]

/-- An integer of 64 bits is within the range of the numbers that can be read. -/
theorem IsWord.kind_isSome {n : Number} (h : n.IsWord) : n.kind.isSome = true := by
  obtain ⟨i, lower, upper, rfl⟩ := h
  rcases Int.lt_or_le i 0 with minus | natural
  · have small : i.natAbs ≤ Nat.pow 2 63 := by
      have power : Int.pow 2 63 = Nat.pow 2 63 := rfl
      omega
    rw [kind_ofInt_of_neg minus small]
    rfl
  · obtain ⟨n, rfl⟩ := Int.eq_ofNat_of_zero_le natural
    have small : n < UInt64.size := by
      have power : Int.pow 2 64 = UInt64.size := rfl
      omega
    have word : (UInt64.ofNat n).toNat = n := UInt64.toNat_ofNat_of_lt' small
    rw [ofInt_natCast, ← word, kind_ofNat]
    rfl

end Number

namespace Tree

/-! ## From tokens to the tree -/

/-- A value begins with a token that closes no array. -/
theorem spell_eq_cons (v : Json) : ∃ t ts, spell v = t :: ts ∧ t ≠ .closeArray := by
  cases v <;> exact ⟨_, _, rfl, by simp⟩

theorem spellItems_eq_cons (v : Json) (vs : List Json) :
    ∃ t ts, spellItems (v :: vs) = t :: ts ∧ t ≠ .closeArray := by
  obtain ⟨t, ts, h, open_⟩ := spell_eq_cons v
  cases vs with
  | nil => exact ⟨t, ts, by rw [spellItems, h], open_⟩
  | cons w ws => exact ⟨t, ts ++ .comma :: spellItems (w :: ws), by simp [spellItems, h], open_⟩

theorem spellMembers_eq_cons (m : String × Json) (ms : List (String × Json)) :
    ∃ ts, spellMembers (m :: ms) = .string (some m.1) :: ts := by
  cases ms with
  | nil => exact ⟨.colon :: spell m.2, rfl⟩
  | cons n ns => exact ⟨.colon :: (spell m.2 ++ .comma :: spellMembers (n :: ns)), rfl⟩

/-- An array that does not close at once is read item by item. -/
theorem read_openArray (n : Nat) {t : Token} (h : t ≠ .closeArray) (ts : List Token) :
    read (n + 1) (.openArray :: t :: ts) =
      (.array (readItems n (t :: ts)).1 (readItems n (t :: ts)).2.1,
        (readItems n (t :: ts)).2.2) := by
  cases t <;> first
    | rfl
    | exact absurd rfl h

/-- Behind an item and a comma the next item is read. -/
theorem readItems_comma {n : Nat} {ts us : List Token} {item : Tree} {t : Token}
    (read : read n ts = (item, .comma :: t :: us)) (h : t ≠ .closeArray) :
    readItems (n + 1) ts =
      (item :: (readItems n (t :: us)).1, (readItems n (t :: us)).2.1,
        (readItems n (t :: us)).2.2) := by
  rw [readItems, read]
  cases t <;> first
    | rfl
    | exact absurd rfl h

/-- An object that does not close at once is read member by member. -/
theorem read_openObject (n : Nat) (name : Option String) (ts : List Token) :
    read (n + 1) (.openObject :: .string name :: ts) =
      (.object (readMembers n (.string name :: ts)).1 (readMembers n (.string name :: ts)).2.1,
        (readMembers n (.string name :: ts)).2.2) := rfl

/-- Behind a member and a closing brace the object ends. -/
theorem readMembers_close {n : Nat} {name : Option String} {ts us : List Token} {value : Tree}
    (read : read n ts = (value, .closeObject :: us)) :
    readMembers (n + 1) (.string name :: .colon :: ts) = ([(name, value)], .closed, us) := by
  unfold readMembers
  simp only [read]

/-- Behind a member and a comma the next member is read. -/
theorem readMembers_comma {n : Nat} {name next : Option String} {ts us : List Token}
    {value : Tree} (read : read n ts = (value, .comma :: .string next :: us)) :
    readMembers (n + 1) (.string name :: .colon :: ts) =
      ((name, value) :: (readMembers n (.string next :: us)).1,
        (readMembers n (.string next :: us)).2.1, (readMembers n (.string next :: us)).2.2) := by
  conv => lhs; unfold readMembers
  simp only [read]

mutual

/-- The tokens of a value are read as its tree, two steps for each token. -/
theorem read_spell : ∀ (v : Json) (n : Nat) (rest : List Token), 2 * (spell v).length ≤ n →
    read n (spell v ++ rest) = (ofJson v, rest)
  | .null, n + 1, _, _ => rfl
  | .bool _, n + 1, _, _ => rfl
  | .number _, n + 1, _, _ => rfl
  | .string _, n + 1, _, _ => rfl
  | .array [], n + 1, _, _ => rfl
  | .object [], n + 1, _, _ => rfl
  | .array (v :: vs), n + 1, rest, h => by
    obtain ⟨t, ts, first, other⟩ := spellItems_eq_cons v vs
    have inside := readItems_spell v vs n rest (by simp [spell] at h; omega)
    rw [first, List.cons_append] at inside
    simp only [spell, first, List.cons_append, List.append_assoc, List.nil_append]
    rw [read_openArray n other, inside]
    rfl
  | .object (m :: ms), n + 1, rest, h => by
    obtain ⟨ts, first⟩ := spellMembers_eq_cons m ms
    have inside := readMembers_spell m ms n rest (by simp [spell] at h; omega)
    rw [first, List.cons_append] at inside
    simp only [spell, first, List.cons_append, List.append_assoc, List.nil_append]
    rw [read_openObject, inside]
    rfl
  | .null, 0, _, h => by simp [spell] at h
  | .bool _, 0, _, h => by simp [spell] at h
  | .number _, 0, _, h => by simp [spell] at h
  | .string _, 0, _, h => by simp [spell] at h
  | .array _, 0, _, h => by simp [spell] at h
  | .object _, 0, _, h => by simp [spell] at h

theorem readItems_spell : ∀ (v : Json) (vs : List Json) (n : Nat) (rest : List Token),
    2 * (spellItems (v :: vs)).length + 1 ≤ n →
      readItems n (spellItems (v :: vs) ++ .closeArray :: rest) =
        (ofItems (v :: vs), .closed, rest)
  | _, _, 0, _, h => by omega
  | v, [], n + 1, rest, h => by
    have item := read_spell v n (.closeArray :: rest) (by simp [spellItems] at h; omega)
    rw [spellItems, readItems, item]
    rfl
  | v, w :: ws, n + 1, rest, h => by
    have item := read_spell v n (.comma :: (spellItems (w :: ws) ++ .closeArray :: rest))
      (by simp [spellItems] at h; omega)
    have items := readItems_spell w ws n rest (by simp [spellItems] at h ⊢; omega)
    obtain ⟨t, ts, first, other⟩ := spellItems_eq_cons w ws
    rw [first, List.cons_append] at item items
    simp only [spellItems, List.append_assoc, List.cons_append, first]
    rw [readItems_comma item other, items]
    rfl

theorem readMembers_spell : ∀ (m : String × Json) (ms : List (String × Json)) (n : Nat)
    (rest : List Token), 2 * (spellMembers (m :: ms)).length + 1 ≤ n →
      readMembers n (spellMembers (m :: ms) ++ .closeObject :: rest) =
        (ofMembers (m :: ms), .closed, rest)
  | _, _, 0, _, h => by omega
  | (name, v), [], n + 1, rest, h => by
    have value := read_spell v n (.closeObject :: rest) (by simp [spellMembers] at h; omega)
    simp only [spellMembers, List.cons_append]
    rw [readMembers_close value]
    rfl
  | (name, v), m :: ms, n + 1, rest, h => by
    have value := read_spell v n (.comma :: (spellMembers (m :: ms) ++ .closeObject :: rest))
      (by simp [spellMembers] at h; omega)
    have members := readMembers_spell m ms n rest (by simp [spellMembers] at h ⊢; omega)
    obtain ⟨ts, first⟩ := spellMembers_eq_cons m ms
    rw [first, List.cons_append] at value members
    simp only [spellMembers, List.append_assoc, List.cons_append, first]
    rw [readMembers_comma value, members]
    rfl

end

/-- A text that is made of the tokens of a value, and of nothing else, is read as its tree. -/
theorem ofText_of_tokens {text : String} {v : Json} (h : tokens text.toList = spell v) :
    ofText text = (ofJson v, []) := by
  have all := read_spell v (2 * (spell v).length) [] (Nat.le_refl _)
  rw [List.append_nil] at all
  unfold ofText
  rw [h, all]

/-! ## From the tree to the value -/

theorem ofItems_eq_map (vs : List Json) : ofItems vs = vs.map ofJson := by
  induction vs with
  | nil => rfl
  | cons v vs ih => rw [ofItems, ih, List.map_cons]

theorem ofMembers_eq_map (ms : List (String × Json)) :
    ofMembers ms = ms.map fun m => (some m.1, ofJson m.2) := by
  induction ms with
  | nil => rfl
  | cons m ms ih => rw [ofMembers, ih, List.map_cons]

theorem valueItems_ofItems {depth : Nat} {vs : List Json}
    (h : ∀ v ∈ vs, (ofJson v).value depth = .ok v) : valueItems depth (ofItems vs) = .ok vs := by
  induction vs with
  | nil => rfl
  | cons v vs ih =>
    rw [ofItems, valueItems, h v List.mem_cons_self,
      ih fun w hw => h w (List.mem_cons_of_mem v hw)]
    rfl

theorem valueMembers_ofMembers {depth : Nat} {ms : List (String × Json)}
    (h : ∀ m ∈ ms, (ofJson m.2).value depth = .ok m.2) :
    valueMembers depth (ofMembers ms) = .ok ms := by
  induction ms with
  | nil => rfl
  | cons m ms ih =>
    rw [ofMembers, valueMembers, h m List.mem_cons_self,
      ih fun n hn => h n (List.mem_cons_of_mem m hn)]
    rfl

/-- The tree of a legible value has this value. -/
theorem value_ofJson : ∀ {depth : Nat} {v : Json}, Legible depth v →
    (ofJson v).value depth = .ok v
  | _, .null, _ => by simp [ofJson, value]; rfl
  | _, .bool _, _ => by simp [ofJson, value]; rfl
  | _, .number _, h => by
    simp [ofJson, value, (legible_number.mp h).kind_isSome]
    rfl
  | _, .string _, _ => by simp [ofJson, value]; rfl
  | depth + 1, .array items, h => by
    rw [ofJson, value, valueItems_ofItems fun v hv => value_ofJson (h v hv)]
    rfl
  | depth + 1, .object members, h => by
    rw [ofJson, value, valueMembers_ofMembers fun m hm => value_ofJson (h m hm)]
    rfl

mutual

/-- Nothing stands in the way of a reader that passes over the tree of a value. -/
theorem skip_ofJson : ∀ v : Json, (ofJson v).skip = .ok ()
  | .null => rfl
  | .bool _ => rfl
  | .number _ => rfl
  | .string _ => rfl
  | .array items => by
    rw [ofJson, skip, skipItems_ofItems items]
    rfl
  | .object members => by
    rw [ofJson, skip, skipMembers_ofMembers members]
    rfl

theorem skipItems_ofItems : ∀ vs : List Json, skipItems (ofItems vs) = .ok ()
  | [] => rfl
  | v :: vs => by
    rw [ofItems, skipItems, skip_ofJson v]
    exact skipItems_ofItems vs

theorem skipMembers_ofMembers : ∀ ms : List (String × Json),
    skipMembers (ofMembers ms) = .ok ()
  | [] => rfl
  | (_, v) :: ms => by
    rw [ofMembers, skipMembers, skip_ofJson v]
    exact skipMembers_ofMembers ms

end

end Tree

/-! ## Whole texts -/

theorem tokens_compactText {depth : Nat} {v : Json} (h : Legible depth v) :
    tokens v.compactText.toList = spell v := by
  simpa [compactText] using tokens_compact h.integral endsNumber_nil

theorem tokens_indentedText {depth : Nat} {v : Json} (h : Legible depth v) :
    tokens v.indentedText.toList = spell v := by
  simpa [indentedText] using tokens_indented h.integral 0 endsNumber_nil

theorem parse_of_tokens {text : String} {v : Json} (h : tokens text.toList = spell v)
    (legible : Legible maxDepth v) : parse text = .ok v := by
  unfold parse
  rw [Tree.ofText_of_tokens h]
  simp only [Tree.value_ofJson legible]
  rfl

end ImageLint.Json
