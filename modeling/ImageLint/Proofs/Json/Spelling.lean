import ImageLint.Json.Printer
import ImageLint.Json.Token

/-!
# The tokens of what is written

The text of a value, compact or indented, is cut into the tokens that the value is made of, whatever
stands behind it. A number is the one exception: what stands behind it must not go on with it.

Strings are read by two readers, one that wants the text and one that passes over it. Both stop at
the closing quote, because each character is read back from its escape.
-/

namespace ImageLint.Json

/-! ## Strings -/

namespace Quoted

/-- What the four digits of an escaped control character stand for. -/
theorem hexUnit?_of_isControl {c : Char} (h : isControl c = true) :
    hexUnit? '0' '0' (hexChar (c.toNat / 16)) (hexChar (c.toNat % 16)) = some c.toNat := by
  have small : ∀ n < 0x20, hexUnit? '0' '0' (hexChar (n / 16)) (hexChar (n % 16)) = some n := by
    decide
  exact small c.toNat (of_decide_eq_true h)

theorem not_surrogate_of_isControl {c : Char} (h : isControl c = true) :
    isLowSurrogate c.toNat = false ∧ isHighSurrogate c.toNat = false := by
  have small : c.toNat < 0x20 := of_decide_eq_true h
  unfold isLowSurrogate isHighSurrogate
  exact ⟨by rw [decide_eq_false (by omega), Bool.false_and],
    by rw [decide_eq_false (by omega), Bool.false_and]⟩

/-- A character that is written as it is. -/
theorem decode_plain {c : Char} (quote : c ≠ '"') (backslash : c ≠ '\\')
    (control : isControl c = false) (rest : List Char) :
    decode (c :: rest) = cons c (decode rest) := by
  rw [decode.eq_def]
  split <;> simp_all

theorem skip_plain {c : Char} (quote : c ≠ '"') (backslash : c ≠ '\\')
    (control : isControl c = false) (rest : List Char) : skip (c :: rest) = skip rest := by
  rw [skip.eq_def]
  split <;> simp_all

/-- A character is read back from the way it is written. -/
theorem decode_escape (c : Char) (rest : List Char) :
    decode (escape c ++ rest) = cons c (decode rest) := by
  unfold escape
  split
  next h => rw [h]; rfl
  next quote =>
  split
  next h => rw [h]; rfl
  next backslash =>
  iterate 5 (split; next h => rw [h]; rfl)
  split
  next control =>
    obtain ⟨low, high⟩ := not_surrogate_of_isControl control
    simp [decode, hexUnit?_of_isControl control, low, high]
  next control =>
    exact decode_plain quote backslash (Bool.eq_false_iff.mpr control) rest

theorem skip_escape (c : Char) (rest : List Char) : skip (escape c ++ rest) = skip rest := by
  unfold escape
  split
  next => rfl
  next quote =>
  split
  next => rfl
  next backslash =>
  iterate 5 (split; next => rfl)
  split
  next control => simp [skip, hexUnit?_of_isControl control]
  next control => exact skip_plain quote backslash (Bool.eq_false_iff.mpr control) rest

/-- A text is read as it was written, up to its closing quote. -/
theorem decode_encode (cs rest : List Char) :
    decode (encode cs ++ '"' :: rest) = .ok (cs, rest) := by
  induction cs with
  | nil => rfl
  | cons c cs ih =>
    unfold encode at ih ⊢
    rw [List.flatMap_cons, List.append_assoc, decode_escape, ih]
    rfl

theorem skip_encode (cs rest : List Char) : skip (encode cs ++ '"' :: rest) = .ok rest := by
  induction cs with
  | nil => rfl
  | cons c cs ih =>
    unfold encode at ih ⊢
    rw [List.flatMap_cons, List.append_assoc, skip_escape, ih]

end Quoted

/-! ## Numbers -/

/-- What stands behind a number does not go on with it. -/
def EndsNumber (rest : List Char) : Prop :=
  ∀ c ∈ rest.head?, Text.isDigit c = false ∧ c ≠ '.' ∧ c ≠ 'e' ∧ c ≠ 'E'

@[simp] theorem endsNumber_nil : EndsNumber [] := by
  intro c hc
  cases hc

@[simp] theorem endsNumber_cons {c : Char} {rest : List Char} :
    EndsNumber (c :: rest) ↔ Text.isDigit c = false ∧ c ≠ '.' ∧ c ≠ 'e' ∧ c ≠ 'E' := by
  simp [EndsNumber]

theorem endsNumber_newline (level : Nat) (rest : List Char) :
    EndsNumber (newline level ++ rest) := endsNumber_cons.mpr (by decide)

/-- An integer of 64 bits, signed or unsigned. -/
def Number.IsWord (n : Number) : Prop :=
  ∃ i : Int, -Int.pow 2 63 ≤ i ∧ i < Int.pow 2 64 ∧ n = .ofInt i

theorem Number.ofInt_natCast (n : Nat) : Number.ofInt n = .ofNat n := by
  have natural : ¬ (n : Int) < 0 := by omega
  simp [ofInt, ofNat, natural]

namespace Token

theorem isDigit_of_mem_toDigits {n : Nat} {c : Char} (h : c ∈ Nat.toDigits 10 n) :
    Text.isDigit c = true := by
  have digit : c.isDigit = true := Nat.isDigit_of_mem_toDigits (by omega) (by omega) h
  simpa [Char.isDigit, Text.isDigit, Char.le_def] using digit

/-- Only zero begins with the digit zero. -/
theorem eq_zero_of_head?_toDigits {n : Nat} (h : (Nat.toDigits 10 n).head? = some '0') :
    n = 0 := by
  induction n using Nat.strongRecOn with
  | ind n ih =>
    rcases Nat.lt_or_ge n 10 with small | large
    · have digits : ∀ n < 10, (Nat.toDigits 10 n).head? = some '0' → n = 0 := by decide
      exact digits n small h
    · have front : (Nat.toDigits 10 (n / 10)).head? = some '0' := by
        rw [Nat.toDigits_of_base_le (by omega) large] at h
        cases hd : Nat.toDigits 10 (n / 10) with
        | nil => exact absurd hd Nat.toDigits_ne_nil
        | cons d ds => rwa [hd] at h
      have := ih (n / 10) (by omega) front
      omega

theorem takeDigits_append {ds rest : List Char} (digits : ∀ c ∈ ds, Text.isDigit c = true)
    (stop : ∀ c ∈ rest.head?, Text.isDigit c = false) : takeDigits (ds ++ rest) = (ds, rest) := by
  unfold takeDigits
  rw [List.takeWhile_append_of_pos digits, List.dropWhile_append_of_pos digits]
  cases rest with
  | nil => simp
  | cons c rest => simp [stop c rfl]

theorem afterDigits_of_endsNumber (negative : Bool) (whole : Nat) {rest : List Char}
    (h : EndsNumber rest) :
    afterDigits negative whole [] rest = (.number ⟨negative, whole, [], none⟩, rest) := by
  cases rest with
  | nil => rfl
  | cons c rest =>
    obtain ⟨-, -, lower, upper⟩ := endsNumber_cons.mp h
    unfold afterDigits
    split <;> simp_all

/-- The digits of a natural number, with its sign in front of them. -/
theorem numeral_toDigits (negative : Bool) (whole : Nat) {rest : List Char}
    (h : EndsNumber rest) :
    numeral negative (Nat.toDigits 10 whole ++ rest) =
      (.number ⟨negative, whole, [], none⟩, rest) := by
  have cut : takeDigits (Nat.toDigits 10 whole ++ rest) = (Nat.toDigits 10 whole, rest) :=
    takeDigits_append (fun c hc => isDigit_of_mem_toDigits hc) fun c hc => (h c hc).1
  have value : digitsValue (Nat.toDigits 10 whole) = whole := Nat.ofDigitChars_ten_toDigits
  unfold numeral
  rw [cut]
  split
  next heq => exact absurd (congrArg Prod.fst heq) Nat.toDigits_ne_nil
  next d ds _ heq =>
    -- a leading zero makes the number zero, which has no other digit
    have digits : Nat.toDigits 10 whole = '0' :: d :: ds := congrArg Prod.fst heq
    have zero : whole = 0 := eq_zero_of_head?_toDigits (by rw [digits]; rfl)
    rw [zero] at digits
    simp at digits
  next heq =>
    have point : rest = '.' :: _ := congrArg Prod.snd heq
    rw [point] at h
    exact absurd rfl (endsNumber_cons.mp h).2.1
  next ds rest' _ _ _ heq =>
    cases heq
    rw [value, afterDigits_of_endsNumber negative whole h]

theorem next_of_isDigit {c : Char} (h : Text.isDigit c = true) (cs : List Char) :
    next c cs = numeral false (c :: cs) := by
  unfold next
  split <;> first
    | exact absurd h (by decide)
    | rw [if_pos h]

/-- An integer with its sign. -/
theorem next_text_ofInt (i : Int) {rest : List Char} (h : EndsNumber rest) :
    ∃ c cs, (Number.ofInt i).text ++ rest = c :: cs ∧ isSpace c = false ∧
      next c cs = (.number (.ofInt i), rest) := by
  have digits := numeral_toDigits (decide (i < 0)) i.natAbs h
  by_cases minus : i < 0
  · rw [decide_eq_true minus] at digits
    refine ⟨'-', Nat.toDigits 10 i.natAbs ++ rest, ?_, by decide, ?_⟩
    · simp [Number.text, Number.ofInt, minus]
    · simpa [Number.ofInt, minus, next] using digits
  · rw [decide_eq_false minus] at digits
    cases hd : Nat.toDigits 10 i.natAbs with
    | nil => exact absurd hd Nat.toDigits_ne_nil
    | cons d ds =>
      have digit : Text.isDigit d = true := isDigit_of_mem_toDigits (by rw [hd]; simp)
      refine ⟨d, ds ++ rest, ?_, ?_, ?_⟩
      · simp [Number.text, Number.ofInt, minus, hd]
      · cases space : isSpace d with
        | false => rfl
        | true =>
          simp only [isSpace, Bool.or_eq_true, decide_eq_true_eq] at space
          rcases space with ((rfl | rfl) | rfl) | rfl <;> exact absurd digit (by decide)
      · rw [next_of_isDigit digit, ← List.cons_append, ← hd, digits]
        simp [Number.ofInt, minus]

end Token

/-! ## Single tokens -/

theorem tokens_of_next {c : Char} {cs rest : List Char} {t : Token}
    (space : Token.isSpace c = false) (next : Token.next c cs = (t, rest))
    (last : t.isLast = false) : tokens (c :: cs) = t :: tokens rest := by
  rw [tokens, space, next]
  simp [last]

theorem tokens_of_isSpace {c : Char} (h : Token.isSpace c = true) (cs : List Char) :
    tokens (c :: cs) = tokens cs := by
  rw [tokens, if_pos h]

@[simp] theorem tokens_nil : tokens [] = [] := by rw [tokens]

@[simp] theorem tokens_openObject (cs : List Char) :
    tokens ('\x7b' :: cs) = .openObject :: tokens cs := tokens_of_next rfl rfl rfl

@[simp] theorem tokens_closeObject (cs : List Char) :
    tokens ('\x7d' :: cs) = .closeObject :: tokens cs := tokens_of_next rfl rfl rfl

@[simp] theorem tokens_openArray (cs : List Char) :
    tokens ('[' :: cs) = .openArray :: tokens cs := tokens_of_next rfl rfl rfl

@[simp] theorem tokens_closeArray (cs : List Char) :
    tokens (']' :: cs) = .closeArray :: tokens cs := tokens_of_next rfl rfl rfl

@[simp] theorem tokens_comma (cs : List Char) :
    tokens (',' :: cs) = .comma :: tokens cs := tokens_of_next rfl rfl rfl

@[simp] theorem tokens_colon (cs : List Char) :
    tokens (':' :: cs) = .colon :: tokens cs := tokens_of_next rfl rfl rfl

@[simp] theorem tokens_blank (cs : List Char) : tokens (' ' :: cs) = tokens cs :=
  tokens_of_isSpace rfl cs

@[simp] theorem tokens_newline (level : Nat) (cs : List Char) :
    tokens (newline level ++ cs) = tokens cs := by
  have blanks : ∀ n : Nat, tokens (List.replicate n ' ' ++ cs) = tokens cs := by
    intro n
    induction n with
    | zero => rfl
    | succ n ih => rw [List.replicate_succ, List.cons_append, tokens_blank, ih]
  unfold newline
  rw [List.cons_append, tokens_of_isSpace rfl, blanks]

@[simp] theorem tokens_quote (s : String) (cs : List Char) :
    tokens (quote s ++ cs) = .string (some s) :: tokens cs := by
  have closed : quote s ++ cs = '"' :: (Quoted.encode s.toList ++ '"' :: cs) := by simp [quote]
  have read : Token.next '"' (Quoted.encode s.toList ++ '"' :: cs) = (.string (some s), cs) := by
    unfold Token.next Token.quoted
    simp only [Quoted.decode_encode, Quoted.skip_encode, String.ofList_toList]
  rw [closed]
  exact tokens_of_next rfl read rfl

theorem tokens_number (i : Int) {rest : List Char} (ends : EndsNumber rest) :
    tokens ((Number.ofInt i).text ++ rest) = .number (.ofInt i) :: tokens rest := by
  obtain ⟨c, cs, text, space, next⟩ := Token.next_text_ofInt i ends
  rw [text]
  exact tokens_of_next space next rfl

/-! ## Values -/

mutual

/-- The tokens that a value is made of. -/
def spell : Json → List Token
  | .null => [.null]
  | .bool b => [.bool b]
  | .number n => [.number n]
  | .string s => [.string (some s)]
  | .array items => .openArray :: (spellItems items ++ [.closeArray])
  | .object members => .openObject :: (spellMembers members ++ [.closeObject])

def spellItems : List Json → List Token
  | [] => []
  | [v] => spell v
  | v :: vs => spell v ++ .comma :: spellItems vs

def spellMembers : List (String × Json) → List Token
  | [] => []
  | [(name, v)] => .string (some name) :: .colon :: spell v
  | (name, v) :: vs => .string (some name) :: .colon :: (spell v ++ .comma :: spellMembers vs)

end

/-- At most `depth` arrays and objects are inside one another, and all numbers are integers of
64 bits. -/
def Legible : Nat → Json → Prop
  | _, .null => True
  | _, .bool _ => True
  | _, .number n => n.IsWord
  | _, .string _ => True
  | 0, .array _ => False
  | 0, .object _ => False
  | depth + 1, .array items => ∀ v ∈ items, Legible depth v
  | depth + 1, .object members => ∀ m ∈ members, Legible depth m.2

@[simp] theorem legible_null (depth : Nat) : Legible depth .null := by simp [Legible]

@[simp] theorem legible_bool (depth : Nat) (b : Bool) : Legible depth (.bool b) := by
  simp [Legible]

@[simp] theorem legible_number {depth : Nat} {n : Number} :
    Legible depth (.number n) ↔ n.IsWord := by rw [Legible]

@[simp] theorem legible_string (depth : Nat) (s : String) : Legible depth (.string s) := by
  simp [Legible]

@[simp] theorem legible_array {depth : Nat} {vs : List Json} :
    Legible (depth + 1) (.array vs) ↔ ∀ v ∈ vs, Legible depth v := by rw [Legible]

@[simp] theorem legible_object {depth : Nat} {ms : List (String × Json)} :
    Legible (depth + 1) (.object ms) ↔ ∀ m ∈ ms, Legible depth m.2 := by rw [Legible]

/-- All numbers of a value are integers, however large. -/
inductive Integral : Json → Prop where
  | null : Integral .null
  | bool (b : Bool) : Integral (.bool b)
  | number (i : Int) : Integral (.number (.ofInt i))
  | string (s : String) : Integral (.string s)
  | array {items : List Json} : (∀ v ∈ items, Integral v) → Integral (.array items)
  | object {members : List (String × Json)} :
      (∀ m ∈ members, Integral m.2) → Integral (.object members)

theorem Legible.integral : ∀ {depth : Nat} {v : Json}, Legible depth v → Integral v
  | _, .null, _ => .null
  | _, .bool b, _ => .bool b
  | _, .number _, h => by
    obtain ⟨i, -, -, rfl⟩ := legible_number.mp h
    exact .number i
  | _, .string s, _ => .string s
  | _ + 1, .array _, h => .array fun v hv => Legible.integral (h v hv)
  | _ + 1, .object _, h => .object fun m hm => Legible.integral (h m hm)

/-- Pieces with commas between them, when the tokens of each piece are known. -/
theorem tokens_intercalate {α : Type} {write : α → List Char} {token : α → List Token}
    {as : List α} (h : ∀ a ∈ as, ∀ rest, EndsNumber rest →
      tokens (write a ++ rest) = token a ++ tokens rest) {rest : List Char}
    (ends : EndsNumber rest) :
    tokens ([','].intercalate (as.map write) ++ rest) =
      [.comma].intercalate (as.map token) ++ tokens rest := by
  induction as with
  | nil => rfl
  | cons a as ih =>
    have first := h a List.mem_cons_self
    cases as with
    | nil => simpa using first rest ends
    | cons b bs =>
      have others := ih fun c hc => h c (List.mem_cons_of_mem a hc)
      simp only [List.map_cons, List.intercalate_cons_cons, List.append_assoc] at others ⊢
      rw [first _ (by simp; decide), List.singleton_append, tokens_comma, others]
      rfl

/-- A list that is put together item by item, with separators between neighbours. -/
theorem eq_intercalate {α β : Type} {f : List α → List β} {g : α → List β} {sep : List β}
    (none : f [] = []) (one : ∀ a, f [a] = g a)
    (more : ∀ a b as, f (a :: b :: as) = g a ++ sep ++ f (b :: as)) (as : List α) :
    f as = sep.intercalate (as.map g) := by
  induction as with
  | nil => exact none
  | cons a as ih =>
    cases as with
    | nil => rw [one, List.map_singleton, List.intercalate_singleton]
    | cons b bs =>
      rw [more, ih]
      simp only [List.map_cons, List.intercalate_cons_cons]

theorem spellItems_eq (vs : List Json) : spellItems vs = [.comma].intercalate (vs.map spell) :=
  eq_intercalate rfl (fun _ => rfl) (fun _ _ _ => by simp [spellItems]) vs

theorem spellMembers_eq (ms : List (String × Json)) :
    spellMembers ms =
      [.comma].intercalate (ms.map fun m => .string (some m.1) :: .colon :: spell m.2) :=
  eq_intercalate rfl (fun _ => rfl) (fun _ _ _ => by simp [spellMembers]) ms

theorem compactItems_eq (vs : List Json) :
    compactItems vs = [','].intercalate (vs.map compact) :=
  eq_intercalate rfl (fun _ => rfl) (fun _ _ _ => by simp [compactItems]) vs

theorem compactMembers_eq (ms : List (String × Json)) :
    compactMembers ms = [','].intercalate (ms.map fun m => quote m.1 ++ ':' :: compact m.2) :=
  eq_intercalate rfl (fun _ => rfl) (fun _ _ _ => by simp [compactMembers]) ms

theorem indentedItems_eq (level : Nat) (vs : List Json) :
    indentedItems level vs =
      [','].intercalate (vs.map fun v => newline level ++ indented level v) :=
  eq_intercalate rfl (fun _ => rfl) (fun _ _ _ => by simp [indentedItems]) vs

theorem indentedMembers_eq (level : Nat) (ms : List (String × Json)) :
    indentedMembers level ms = [','].intercalate
      (ms.map fun m => newline level ++ quote m.1 ++ ':' :: ' ' :: indented level m.2) :=
  eq_intercalate rfl (fun _ => rfl) (fun _ _ _ => by simp [indentedMembers]) ms

/-- The compact text of a value. -/
theorem tokens_compact {v : Json} (h : Integral v) {rest : List Char} (ends : EndsNumber rest) :
    tokens (compact v ++ rest) = spell v ++ tokens rest := by
  induction h generalizing rest with
  | null => exact tokens_of_next rfl rfl rfl
  | bool b => cases b <;> exact tokens_of_next rfl rfl rfl
  | number i => exact tokens_number i ends
  | string s => exact tokens_quote s rest
  | array _ ih =>
    have inside := tokens_intercalate (fun v hv _ ends => ih v hv ends)
      (endsNumber_cons.mpr (by decide) : EndsNumber (']' :: rest))
    simpa [compact, spell, compactItems_eq, spellItems_eq] using inside
  | @object members _ ih =>
    have member : ∀ m ∈ members, ∀ rest, EndsNumber rest →
        tokens (quote m.1 ++ ':' :: compact m.2 ++ rest) =
          .string (some m.1) :: .colon :: spell m.2 ++ tokens rest := by
      intro m hm rest ends
      simp [ih m hm ends]
    have inside := tokens_intercalate member
      (endsNumber_cons.mpr (by decide) : EndsNumber ('\x7d' :: rest))
    simpa [compact, spell, compactMembers_eq, spellMembers_eq] using inside

/-- The indented text of a value. -/
theorem tokens_indented {v : Json} (h : Integral v) (level : Nat) {rest : List Char}
    (ends : EndsNumber rest) :
    tokens (indented level v ++ rest) = spell v ++ tokens rest := by
  induction h generalizing level rest with
  | null => exact tokens_of_next rfl rfl rfl
  | bool b => cases b <;> exact tokens_of_next rfl rfl rfl
  | number i => exact tokens_number i ends
  | string s => exact tokens_quote s rest
  | @array items _ ih =>
    cases items with
    | nil => simp [indented, spell, spellItems]
    | cons v vs =>
      have item : ∀ u ∈ v :: vs, ∀ rest, EndsNumber rest →
          tokens (newline (level + 1) ++ indented (level + 1) u ++ rest) =
            spell u ++ tokens rest := by
        intro u hu rest ends
        simp [ih u hu (level + 1) ends]
      have inside := tokens_intercalate item (endsNumber_newline level (']' :: rest))
      simpa [indented, spell, indentedItems_eq, spellItems_eq] using inside
  | @object members _ ih =>
    cases members with
    | nil => simp [indented, spell, spellMembers]
    | cons m ms =>
      have member : ∀ n ∈ m :: ms, ∀ rest, EndsNumber rest →
          tokens (newline (level + 1) ++ quote n.1 ++ ':' :: ' ' :: indented (level + 1) n.2 ++
              rest) =
            .string (some n.1) :: .colon :: spell n.2 ++ tokens rest := by
        intro n hn rest ends
        simp [ih n hn (level + 1) ends]
      have inside := tokens_intercalate member (endsNumber_newline level ('\x7d' :: rest))
      simpa [indented, spell, indentedMembers_eq, spellMembers_eq] using inside

end ImageLint.Json
