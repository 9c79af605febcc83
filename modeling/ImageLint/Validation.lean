import ImageLint.Attribute.Rules
import ImageLint.Duplicate
import ImageLint.Validator.Dispatch
import ImageLint.Validator.Loader

/-!
# Validating models

A pass over a model checks its attributes, looks for duplicate target paths and runs the custom
validator, in this order. A validator that cannot be loaded is a finding of its own.

Between passes an engine keeps the loader and the path of the validator that was used last. When the
path changes, what the loader remembers of the former path is forgotten. A pass takes three steps:
the path is asked for, the engine switches to it (`Engine.switch`), and the validator is loaded.
-/

namespace ImageLint

open Host

/-- What is kept between passes. -/
structure Engine where
  /-- The path of the validator of the last pass, as it was written. -/
  active : Option String
  loader : Loader

/-- What a pass sees of the host. -/
structure Site where
  files : FileSystem
  opener : Opener

/-- What a pass yields. -/
structure Pass where
  engine : Engine
  diagnostics : List Diagnostic
  log : List Log.Line

namespace Engine

def fresh : Engine := ⟨none, .empty⟩

/-- Two answers about the path of the validator that mean the same. -/
def sameAnswer : Option String → Option String → Bool
  | none, none => true
  | some a, some b => samePath a b
  | _, _ => false

/-- The lines of the log for a path that is no longer used. -/
def switchLines (previous : String) (forgotten : Bool) : List Log.Line :=
  if forgotten then [Log.info ("Custom validator path changed, released " ++ previous)] else []

/-- Switches to another path and forgets the former one. -/
def switch (e : Engine) (workingDirectory : NormalPath) (path : Option String) :
    Engine × List Log.Line :=
  if sameAnswer e.active path then (e, [])
  else
    match e.active with
    | none => ({ e with active := path }, [])
    | some previous =>
      let (loader, forgotten) := e.loader.forget workingDirectory previous
      ({ active := path, loader }, switchLines previous forgotten)

/-- The finding for a validator that cannot be loaded. -/
def loadFinding (e : LoadError) : Diagnostic :=
  Rule.customValidatorLoad.diagnostic ("Unable to load custom validator: " ++ e.message)

/-- The line of the log for a validator that cannot be loaded. -/
def skippedLine (e : LoadError) : Log.Line :=
  Log.warning ("Custom validator skipped: " ++ e.message)

/-- Loads the validator at a path and runs it. -/
def runValidator (e : Engine) (site : Site) (path : String) (m : Model) (file : Option String) :
    Pass :=
  let loading := e.loader.load site.files site.opener path
  match loading.outcome with
  | .ok h =>
    let p := h.validator.run m file
    { engine := { e with loader := loading.loader.drop (.ok h) }
      diagnostics := p.sink.diagnostics
      log := loading.log ++ p.log }
  | .error err =>
    { engine := { e with loader := loading.loader }
      diagnostics := [loadFinding err]
      log := loading.log ++ [skippedLine err] }

/-- The part of a pass that belongs to the custom validator. -/
def runCustom (e : Engine) (site : Site) (provided : Option String) (m : Model)
    (file : Option String) : Pass :=
  let (e, log) := e.switch site.files.workingDirectory provided
  match provided with
  | none => { engine := e, diagnostics := [], log }
  | some path =>
    let p := e.runValidator site path m file
    { p with log := log ++ p.log }

/-- The findings of the rules of the linter. -/
def ownFindings (rules : AttributeRules) (m : Model) : List Diagnostic :=
  rules.checkModel m ++ m.duplicatePaths

/-- A pass over a model. Findings that name no file are about the given one. -/
def validateModel (e : Engine) (rules : AttributeRules) (site : Site) (provided : Option String)
    (m : Model) (file : Option String) : Pass :=
  let p := e.runCustom site provided m file
  { p with diagnostics := (ownFindings rules m ++ p.diagnostics).map (·.fillFile file) }

/-- A pass over a document. One in which the parser has found something is not looked into, and the
path of the validator is not asked for. -/
def validateAsking {m : Type → Type} [Monad m] (e : Engine) (rules : AttributeRules) (site : Site)
    (ask : m (Option String)) (d : Document) : m Pass :=
  if d.syntaxDiagnostics.isEmpty then do
    let provided ← ask
    pure (e.validateModel rules site provided d.model d.file)
  else pure { engine := e, diagnostics := d.syntaxDiagnostics.map (·.fillFile d.file), log := [] }

/-- A pass over a document when the answer about the path is known. -/
def validate (e : Engine) (rules : AttributeRules) (site : Site) (provided : Option String)
    (d : Document) : Pass :=
  Id.run (e.validateAsking rules site (pure provided) d)

end Engine

end ImageLint
