import ImageLint.Host.FileSystem
import ImageLint.Validator.Bundled
import ImageLint.Validator.Script

/-!
# Opening artifacts

Which artifacts can be opened on a host: the libraries of the bundled validators, and for
`Opener.scripted` also scripts. Anything else fails to open. The host words such a failure in its own
way, and a mark stands for that.
-/

namespace ImageLint.Opener

open Host

/-- Stands for the words of the host. -/
def hostWords : String := "<os>"

/-- Opens libraries. -/
def native (fs : FileSystem) : Opener := fun path =>
  match fs.contentOf path.text with
  | .ok (.library name) =>
    match Bundled.library name with
    | .validator a => .ok a
    | .empty => .error (.noManifest path hostWords)
    | .unknown => .error (.unreadable path hostWords)
  | _ => .error (.unreadable path hostWords)

/-- Opens scripts and libraries. -/
def scripted (fs : FileSystem) : Opener := fun path =>
  match fs.contentOf path.text with
  | .ok (.text s) =>
    match Json.parse s with
    | .ok (.object members) => Script.openScript (.object members) path
    | _ => native fs path
  | _ => native fs path

end ImageLint.Opener
