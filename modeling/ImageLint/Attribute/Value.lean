import ImageLint.Text.Digit

/-!
# Values of attributes

The formats of the attributes whose values are checked: ids, permissions and a few lists of words.
-/

namespace ImageLint.AttributeValue

/-! ## Ids -/

/-- The greatest id. -/
def maxId : UInt64 := 2147483647

/-- The number that `n` with further digits is, unless it does not fit 64 bits. -/
def appendDigits (n : UInt64) : List Char → Option UInt64
  | [] => some n
  | c :: cs =>
    let d : UInt64 := (Text.digitValue c).toUInt64
    if n ≤ (18446744073709551615 - d) / 10 then appendDigits (n * 10 + d) cs else none

/-- An id is a star or a decimal number that is at most `maxId`. -/
def isIdList (cs : List Char) : Bool :=
  cs = ['*'] || (!cs.isEmpty && cs.all Text.isDigit &&
    match appendDigits 0 cs with
    | some n => n ≤ maxId
    | none => false)

def isId (s : String) : Bool := isIdList s.toList

/-! ## Permissions -/

def isOctal (c : Char) : Bool := '0' ≤ c && c ≤ '7'

/-- Whom a clause is about. -/
def isWho (c : Char) : Bool := c = 'u' || c = 'g' || c = 'o' || c = 'a'

/-- Whether a clause adds, takes away or sets. -/
def isOperator (c : Char) : Bool := c = '-' || c = '+' || c = '='

def isPermission (c : Char) : Bool := c = 'r' || c = 'w' || c = 'x' || c = 's' || c = 't'

/-- Where a reader of symbolic permissions is in a clause. -/
inductive ClausePart where
  | who
  | firstPermission
  | morePermissions
  deriving DecidableEq, Repr

/-- Whether the rest of a text completes symbolic permissions: clauses with commas between them,
each of which names whom it is about, an operator and at least one permission. -/
def isClauses : ClausePart → List Char → Bool
  | .morePermissions, [] => true
  | _, [] => false
  | .who, c :: cs =>
    if isWho c then isClauses .who cs
    else isOperator c && isClauses .firstPermission cs
  | .firstPermission, c :: cs => isPermission c && isClauses .morePermissions cs
  | .morePermissions, c :: cs =>
    if isPermission c then isClauses .morePermissions cs
    else c = ',' && isClauses .who cs

/-- Three octal digits, or four of which the first is a zero. -/
def isOctalMode : List Char → Bool
  | [a, b, c] => isOctal a && isOctal b && isOctal c
  | [z, a, b, c] => z = '0' && isOctal a && isOctal b && isOctal c
  | _ => false

/-- Permissions are a star, an octal mode or symbolic clauses. -/
def isPermissionsList (cs : List Char) : Bool :=
  cs = ['*'] || isOctalMode cs || isClauses .who cs

def isPermissions (s : String) : Bool := isPermissionsList s.toList

/-! ## Words -/

def isAutoso (s : String) : Bool := ["n", "none", "l", "list", "a", "add"].contains s

def isCompress (s : String) : Bool := ["1", "2", "3"].contains s

def isFileType (s : String) : Bool := ["link", "fifo", "file", "dir"].contains s

end ImageLint.AttributeValue
