import ImageLint.Analysis
import ImageLint.Host.Change
import ImageLint.Validator.Opener
import ImageLint.Validator.Provider

/-!
# Sessions

A program that stays up, such as an editor, keeps one engine while files change, validators are
loaded, kept and dropped, and documents are validated again and again. A session is such a run: a
state, and steps that change it and are answered.
-/

namespace ImageLint

open Host

/-- The state of a session. -/
structure Session where
  files : FileSystem
  engine : Engine
  rules : AttributeRules
  provider : Provider
  /-- The value of the variable of the environment that may name a custom validator. -/
  variableValue : Option String
  /-- The validators that are kept, by a name for each. -/
  kept : List (String × Handle)

namespace Session

/-- One step of a session. -/
inductive Step where
  /-- Something else changes the host. -/
  | change (c : Change)
  /-- Loads a validator, and keeps it if a name is given. -/
  | load (path : String) (name : Option String)
  /-- Loads a validator several times at once and without a log. -/
  | loadMany (path : String) (times : Nat)
  /-- Drops the validator that is kept under a name. -/
  | drop (name : String)
  | forget (path : String)
  | isCached (path : String)
  | setProvider (p : Provider)
  | setVariable (value : Option String)
  | validate (d : Document)
  | validateModel (m : Model) (file : Option String)
  | analyze (d : Document) (options : AnalysisOptions)

/-- The answer to a step. -/
inductive Answer where
  | done
  | truth (b : Bool)
  /-- The path that a provider gives now: the one that was set, or the environment if its variable
  was. -/
  | path (p : Option String)
  | loaded (o : LoadOutcome)
  | loadedMany (os : List LoadOutcome)
  | findings (ds : List Diagnostic)
  | report (r : Report)

/-- What a step yields. -/
structure Result where
  session : Session
  answer : Answer
  log : List Log.Line

/-- A session without a custom validator. -/
def start (files : FileSystem) (rules : AttributeRules) : Session where
  files
  engine := .fresh
  rules
  provider := .nowhere
  variableValue := none
  kept := []

def loader (s : Session) : Loader := s.engine.loader

def withLoader (s : Session) (l : Loader) : Session :=
  { s with engine := { s.engine with loader := l } }

/-- The path of the custom validator. -/
def validatorPath (s : Session) : Option String := s.provider.path? s.variableValue

/-- What a pass sees of the host. Scripts count as validators. -/
def site (s : Session) : Site := ⟨s.files, .scripted s.files⟩

/-- Loads a validator. -/
def loadValidator (s : Session) (path : String) : Loading :=
  s.loader.load s.files (.scripted s.files) path

/-- Drops the validator that is kept under a name, if there is one. -/
def dropKept (s : Session) (name : String) : Session × Bool :=
  match s.kept.lookup name with
  | none => (s, false)
  | some h =>
    ({ s.withLoader (s.loader.drop (.ok h)) with kept := Association.erase name s.kept }, true)

/-- Keeps a validator under a name, in the place of another one. -/
def keep (s : Session) (name : String) (h : Handle) : Session :=
  let s := (s.dropKept name).1
  { s with kept := Association.set name h s.kept }

/-- Loads a validator several times. -/
def loadTimes (s : Session) (path : String) : Nat → Session × List LoadOutcome
  | 0 => (s, [])
  | n + 1 =>
    let loading := s.loadValidator path
    let (s, outcomes) := loadTimes (s.withLoader loading.loader) path n
    (s.withLoader (s.loader.drop loading.outcome), loading.outcome :: outcomes)

/-- Takes a step. -/
def step (s : Session) : Step → Result
  | .change c =>
    match s.files.change c, c with
    | .ok files, .removal _ => ⟨{ s with files }, .truth true, []⟩
    | .error _, .removal _ => ⟨s, .truth false, []⟩
    | .ok files, _ => ⟨{ s with files }, .done, []⟩
    | .error _, _ => ⟨s, .done, []⟩
  | .load path name =>
    let loading := s.loadValidator path
    let s := s.withLoader loading.loader
    let s :=
      match loading.outcome, name with
      | .ok h, some name => s.keep name h
      | outcome, _ => s.withLoader (s.loader.drop outcome)
    ⟨s, .loaded loading.outcome, loading.log⟩
  | .loadMany path times =>
    let (s, outcomes) := s.loadTimes path times
    ⟨s, .loadedMany outcomes, []⟩
  | .drop name =>
    let (s, dropped) := s.dropKept name
    ⟨s, .truth dropped, []⟩
  | .forget path =>
    let (l, forgotten) := s.loader.forget s.files.workingDirectory path
    ⟨s.withLoader l, .truth forgotten, []⟩
  | .isCached path => ⟨s, .truth (s.loader.isCached s.files.workingDirectory path), []⟩
  | .setProvider provider =>
    let s := { s with provider }
    ⟨s, .path s.validatorPath, []⟩
  | .setVariable variableValue =>
    ⟨{ s with variableValue }, .path (Provider.environment.path? variableValue), []⟩
  | .validate d =>
    let p := s.engine.validate s.rules s.site s.validatorPath d
    ⟨{ s with engine := p.engine }, .findings p.diagnostics, p.log⟩
  | .validateModel m file =>
    let p := s.engine.validateModel s.rules s.site s.validatorPath m file
    ⟨{ s with engine := p.engine }, .findings p.diagnostics, p.log⟩
  | .analyze d options =>
    let a := s.engine.analyze s.rules s.site s.validatorPath options d
    ⟨{ s with engine := a.engine }, .report a.report, a.log⟩

end Session

end ImageLint
