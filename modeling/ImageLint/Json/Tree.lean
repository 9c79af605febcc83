import ImageLint.Json.Token
import ImageLint.Json.Value

/-!
# A JSON text as far as it can be read

A tree keeps the values of a text in reading order and, where the text is broken, says so in the
place where a reader meets it. A decoder that walks the tree in order therefore finds whichever
comes first, a value of the wrong type or the end of what can be read.

`Tree.value` gives the JSON value of a tree without a broken place, and `Tree.skip` passes over a
tree whose value is not wanted.
-/

namespace ImageLint.Json

/-- How a list of items or members ends. -/
inductive Ending where
  | closed
  /-- The text ends where a comma or the closing bracket must follow. -/
  | cut
  /-- The text ends after a comma. -/
  | dangling
  /-- A token that can neither go on nor close. -/
  | bad (found : Token)
  /-- A name that is a broken string, for a reader of its text and for one that passes over it. -/
  | brokenName (value skip : Fault)
  deriving DecidableEq, Repr

/-- Where there is no value. -/
inductive Hole where
  /-- The text ends. -/
  | atEnd
  /-- A broken string, for a reader of its text and for one that passes over it. -/
  | inString (value skip : Fault)
  /-- Anything else, for a reader of a value and for one that passes over it. -/
  | elsewhere (value skip : Fault)
  deriving DecidableEq, Repr

/-- A JSON text as far as it can be read. -/
inductive Tree where
  | null
  | bool (b : Bool)
  | number (n : Number)
  /-- A string. Without a text it holds a surrogate escape that is not part of a pair. -/
  | string (s : Option String)
  | array (items : List Tree) (ending : Ending)
  | object (members : List (Option String × Tree)) (ending : Ending)
  | hole (place : Hole)
  deriving Repr

instance : Inhabited Tree := ⟨.null⟩

/-- What is wrong with an ending, for a reader of the values and in the order of reading. -/
def Ending.fault : Ending → Option Fault
  | .closed => none
  | .cut => some .truncated
  | .dangling => some .truncated
  | .bad _ => some .malformed
  | .brokenName value _ => some value

/-- What is wrong with an ending, for a reader that passes over the values. -/
def Ending.skipFault : Ending → Option Fault
  | .brokenName _ skip => some skip
  | e => e.fault

/-- What is wrong with a hole, for a reader of a value. -/
def Hole.fault : Hole → Fault
  | .atEnd => .truncated
  | .inString value _ => value
  | .elsewhere value _ => value

/-- What is wrong with a hole, for a reader that passes over it. -/
def Hole.skipFault : Hole → Fault
  | .atEnd => .truncated
  | .inString _ skip => skip
  | .elsewhere _ skip => skip

namespace Tree

mutual

/-- Reads a value. The first argument bounds the number of steps; two for each
token suffice. -/
def read : Nat → List Token → Tree × List Token
  | _, [] => (.hole .atEnd, [])
  | 0, ts => (.hole .atEnd, ts)
  | n + 1, t :: ts =>
    match t with
    | .null => (.null, ts)
    | .bool b => (.bool b, ts)
    | .number x => (.number x, ts)
    | .string s => (.string s, ts)
    | .brokenString f g => (.hole (.inString f g), ts)
    | .brokenNumber f g => (.hole (.elsewhere f g), ts)
    | .stray f => (.hole (.elsewhere f f), ts)
    | .openArray =>
      match ts with
      | [] => (.array [] .cut, [])
      | .closeArray :: ts => (.array [] .closed, ts)
      | ts =>
        let (items, ending, ts) := readItems n ts
        (.array items ending, ts)
    | .openObject =>
      match ts with
      | [] => (.object [] .cut, [])
      | .closeObject :: ts => (.object [] .closed, ts)
      | ts =>
        let (members, ending, ts) := readMembers n ts
        (.object members ending, ts)
    | t => (.hole (.elsewhere .malformed .malformed), t :: ts)

/-- Reads the items of an array, at least one. -/
def readItems : Nat → List Token → List Tree × Ending × List Token
  | 0, ts => ([], .cut, ts)
  | n + 1, ts =>
    let (item, ts) := read n ts
    match ts with
    | [] => ([item], .cut, [])
    | .closeArray :: ts => ([item], .closed, ts)
    | .comma :: [] => ([item], .dangling, [])
    | .comma :: .closeArray :: ts => ([item], .bad .closeArray, ts)
    | .comma :: ts =>
      let (items, ending, ts) := readItems n ts
      (item :: items, ending, ts)
    | t :: ts => ([item], .bad t, ts)

/-- Reads the members of an object, at least one. -/
def readMembers : Nat → List Token → List (Option String × Tree) × Ending × List Token
  | 0, ts => ([], .cut, ts)
  | _ + 1, [] => ([], .cut, [])
  | n + 1, .string name :: ts =>
    let (value, ts) : Tree × List Token := match ts with
      | [] => (.hole .atEnd, [])
      | .colon :: ts => read n ts
      | ts => (.hole (.elsewhere .malformed .malformed), ts)
    match ts with
    | [] => ([(name, value)], .cut, [])
    | .closeObject :: ts => ([(name, value)], .closed, ts)
    | .comma :: [] => ([(name, value)], .dangling, [])
    | .comma :: .string s :: ts =>
      let (members, ending, ts) := readMembers n (.string s :: ts)
      ((name, value) :: members, ending, ts)
    | .comma :: .brokenString f g :: ts => ([(name, value)], .brokenName f g, ts)
    | .comma :: t :: ts => ([(name, value)], .bad t, ts)
    | t :: ts => ([(name, value)], .bad t, ts)
  | _ + 1, .brokenString f g :: ts => ([], .brokenName f g, ts)
  | _ + 1, t :: ts => ([], .bad t, ts)

end

/-- The tree of a text and the tokens after it. -/
def ofText (text : String) : Tree × List Token :=
  let ts := tokens text.toList
  read (2 * ts.length) ts

mutual

/-- Passes over a value that is not wanted. -/
def skip : Tree → Except Fault Unit
  | .array items ending => do
    skipItems items
    match ending.skipFault with
    | none => pure ()
    | some f => throw f
  | .object members ending => do
    skipMembers members
    match ending.skipFault with
    | none => pure ()
    | some f => throw f
  | .hole place => throw place.skipFault
  | _ => pure ()

def skipItems : List Tree → Except Fault Unit
  | [] => pure ()
  | t :: ts => do
    skip t
    skipItems ts

def skipMembers : List (Option String × Tree) → Except Fault Unit
  | [] => pure ()
  | (_, t) :: ts => do
    skip t
    skipMembers ts

end

mutual

/-- The value of a tree in which at most `depth` arrays and objects are inside one another. -/
def value (depth : Nat) : Tree → Except Fault Json
  | .null => pure .null
  | .bool b => pure (.bool b)
  | .number n => if n.kind.isSome then pure (.number n) else throw .malformed
  | .string (some s) => pure (.string s)
  | .string none => throw .malformed
  | .array items ending =>
    match depth with
    | 0 => throw .malformed
    | depth + 1 => do
      let vs ← valueItems depth items
      match ending.fault with
      | none => pure (.array vs)
      | some f => throw f
  | .object members ending =>
    match depth with
    | 0 => throw .malformed
    | depth + 1 => do
      let vs ← valueMembers depth members
      match ending.fault with
      | none => pure (.object vs)
      | some f => throw f
  | .hole place => throw place.fault

def valueItems (depth : Nat) : List Tree → Except Fault (List Json)
  | [] => pure []
  | t :: ts => do
    let v ← value depth t
    let vs ← valueItems depth ts
    pure (v :: vs)

def valueMembers (depth : Nat) : List (Option String × Tree) → Except Fault (List (String × Json))
  | [] => pure []
  | (none, _) :: _ => throw .malformed
  | (some name, t) :: ts => do
    let v ← value depth t
    let vs ← valueMembers depth ts
    pure ((name, v) :: vs)

end

mutual

/-- The tree of a text in which nothing is broken. -/
def ofJson : Json → Tree
  | .null => .null
  | .bool b => .bool b
  | .number n => .number n
  | .string s => .string (some s)
  | .array items => .array (ofItems items) .closed
  | .object members => .object (ofMembers members) .closed

def ofItems : List Json → List Tree
  | [] => []
  | v :: vs => ofJson v :: ofItems vs

def ofMembers : List (String × Json) → List (Option String × Tree)
  | [] => []
  | (name, v) :: vs => (some name, ofJson v) :: ofMembers vs

end

end Tree

/-- Arrays and objects may be this deep inside one another. -/
def maxDepth : Nat := 127

/-- The JSON value that a text holds, and nothing else after it. -/
def parse (text : String) : Except Fault Json := do
  let (tree, rest) := Tree.ofText text
  let v ← tree.value maxDepth
  if rest = [] then pure v else throw .malformed

end ImageLint.Json
