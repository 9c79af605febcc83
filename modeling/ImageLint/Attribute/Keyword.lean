/-!
# Keywords of attributes

The attribute names that the two image builders know. A boolean and a valued attribute may share a
name; a name that either builder knows is accepted.
-/

namespace ImageLint.Keyword

/-- Boolean attributes of `mkifs`. -/
def mkifsBoolean : List String :=
  ["autolink", "big_pages", "bigendian", "compress", "dupignore", "followlink", "include",
    "keeplinked", "optional", "page_align", "raw", "script"]

/-- Boolean attributes of `mkqnx6fs`. -/
def mkqnx6fsBoolean : List String :=
  ["alimit", "bigendian", "boot_cls", "boot_quiet", "dflt_boot", "dupignore", "followlink",
    "fsys_lfncks", "include", "name_enc", "optional"]

/-- Valued attributes of `mkifs`. -/
def mkifsValued : List String :=
  ["autoso", "cd", "chain", "cksum", "compress", "dperms", "drop", "filter", "gid", "image",
    "keepsection", "linker", "module", "mount", "mtime", "pagesizes", "perms", "phys_align",
    "physical", "prefix", "ram", "search", "sha256", "sha512", "type", "uid", "virtual"]

/-- Valued attributes of `mkqnx6fs`. -/
def mkqnx6fsValued : List String :=
  ["cd", "dperms", "filter", "gid", "mtime", "perms", "prefix", "search", "type", "uid"]

/-- The names of both lists in alphabetical order, each once. -/
def union (a b : List String) : List String :=
  ((a ++ b).mergeSort (· ≤ ·)).eraseReps

/-- Boolean attributes of either builder. -/
def boolean : List String := union mkifsBoolean mkqnx6fsBoolean

/-- Valued attributes of either builder. -/
def valued : List String := union mkifsValued mkqnx6fsValued

def isBoolean (name : String) : Bool := mkifsBoolean.contains name || mkqnx6fsBoolean.contains name

def isValued (name : String) : Bool := mkifsValued.contains name || mkqnx6fsValued.contains name

end ImageLint.Keyword
