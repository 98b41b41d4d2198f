import GemLink.Error
import GemLink.Keyed

/-!
Alerts: what the driver tells people who look after the machine. An alert is raised and cleared by
its key; raising it again replaces its texts. Texts that an alert does not carry itself come from a
template that was loaded for its key.
-/

namespace GemLink

/-- The texts of the alerts of one key. -/
structure AlertTemplate where
  /-- The key. -/
  key : String
  /-- The headline. -/
  message : String
  /-- The text below it, with `{error}` where the cause goes. -/
  description : String
  deriving DecidableEq, Repr

/-- Puts the cause of an alert into the places of a description that are meant for it. -/
def fillError (cause : List Char) : List Char → List Char
  | '{' :: 'e' :: 'r' :: 'r' :: 'o' :: 'r' :: '}' :: rest => cause ++ fillError cause rest
  | c :: rest => c :: fillError cause rest
  | [] => []

/-- The description of an alert with the given cause. -/
def AlertTemplate.render (t : AlertTemplate) (cause : Option String) : String :=
  String.ofList (fillError (cause.getD "").toList t.description.toList)

/-- An alert to be raised. -/
structure Alert where
  /-- The key. -/
  key : String
  /-- The cause, for the template. -/
  cause : Option String := none
  /-- A headline of its own. -/
  message : Option String := none
  /-- A description of its own. -/
  description : Option String := none
  deriving DecidableEq, Repr

/-- The texts of an alert that is active. -/
structure ActiveAlert where
  /-- The headline. -/
  message : String
  /-- The text below it. -/
  description : String
  deriving DecidableEq, Repr

/-- The templates and the active alerts of a host. -/
structure AlertBoard where
  /-- The templates by key. -/
  templates : Keyed AlertTemplate := []
  /-- The active alerts by key. -/
  active : Keyed ActiveAlert := []
  deriving DecidableEq, Repr

namespace AlertBoard

/-- Loads templates. -/
def load (b : AlertBoard) (templates : List AlertTemplate) : AlertBoard :=
  { b with templates := templates.foldl (fun m t => m.insert t.key t) b.templates }

/-- The texts under which an alert becomes active: its own, those of its template, or its key and
nothing. -/
def texts (b : AlertBoard) (alert : Alert) : ActiveAlert :=
  let template := b.templates.get? alert.key
  { message := (alert.message <|> template.map AlertTemplate.message).getD alert.key
    description :=
      (alert.description <|> template.map fun t => t.render alert.cause).getD "" }

/-- Raises an alert. -/
def raise (b : AlertBoard) (alert : Alert) : AlertBoard :=
  { b with active := b.active.insert alert.key (b.texts alert) }

/-- Clears an alert, if it is active. -/
def clear (b : AlertBoard) (key : String) : AlertBoard :=
  { b with active := b.active.erase key }

/-- Clears all alerts. -/
def clearAll (b : AlertBoard) : AlertBoard :=
  { b with active := [] }

/-- Whether an alert is active. -/
def isActive (b : AlertBoard) (key : String) : Bool :=
  (b.active.get? key).isSome

end AlertBoard

end GemLink
