import ShellWords.Config
import ShellWords.Json.Parser
import ShellWords.Toml.Parser

/-! Configurations in documents. A document states some parts of a configuration under their names,
in any order and each at most once; the other parts keep their defaults, and what has another name
is passed over. -/

namespace ShellWords

/-- What a document can state under a name, as far as a configuration cares. -/
inductive DocumentValue where
  | text (chars : Text)
  | flag (enabled : Bool)
  /-- A value that no part of a configuration can have. -/
  | other
deriving DecidableEq, Repr

namespace DocumentValue

def ofJson : Json → DocumentValue
  | .string (some chars) => .text chars
  | .bool value => .flag value
  | _ => .other

def ofToml : Toml.Value → DocumentValue
  | .text chars => .text chars
  | .boolean value => .flag value
  | _ => .other

def toJson : DocumentValue → Json
  | text chars => .ofText chars
  | flag enabled => .bool enabled
  | other => .null

end DocumentValue

/-- The names in a document and the values under them, in order. -/
abbrev Document := List (Text × DocumentValue)

inductive ConfigField where
  | whitespace
  | quotes
  | escapes
  | escapedQuotes
  | ansiC
  | locale
deriving DecidableEq, Repr

namespace ConfigField

/-- All parts, in the order in which an array states them. -/
def all : List ConfigField :=
  [whitespace, quotes, escapes, escapedQuotes, ansiC, locale]

def name : ConfigField → Text
  | whitespace => "whitespace".toList
  | quotes => "quotes".toList
  | escapes => "escapes".toList
  | escapedQuotes => "escaped_quotes".toList
  | ansiC => "ansi_c_quotes".toList
  | locale => "locale_quotes".toList

/-- The setting that a value under the name of a part makes, if it is of the right kind. -/
def setting? : ConfigField → DocumentValue → Option Setting
  | whitespace, .text chars => some (.whitespace chars)
  | quotes, .text chars => some (.quotes chars)
  | escapes, .text chars => some (.escapes chars)
  | escapedQuotes, .text chars => some (.escapedQuotes chars)
  | ansiC, .flag enabled => some (.ansiC enabled)
  | locale, .flag enabled => some (.locale enabled)
  | _, _ => none

end ConfigField

namespace Setting

def field : Setting → ConfigField
  | whitespace _ => .whitespace
  | quotes _ => .quotes
  | escapes _ => .escapes
  | escapedQuotes _ => .escapedQuotes
  | ansiC _ => .ansiC
  | locale _ => .locale

/-- What a document states to make a setting. -/
def value : Setting → DocumentValue
  | whitespace chars => .text chars
  | quotes chars => .text chars
  | escapes chars => .text chars
  | escapedQuotes chars => .text chars
  | ansiC enabled => .flag enabled
  | locale enabled => .flag enabled

theorem setting?_field (setting : Setting) :
    setting.field.setting? setting.value = some setting := by
  cases setting <;> rfl

end Setting

namespace Document

def valuesOf (document : Document) (name : Text) : List DocumentValue :=
  (document.filter fun entry => entry.1 == name).map (·.2)

/-- Overlays what a document states about one part, if it states it at most once and well. -/
def overlay? (document : Document) (config : Config) (field : ConfigField) : Option Config :=
  match document.valuesOf field.name with
  | [] => some config
  | [value] => (field.setting? value).map config.set
  | _ => none

def config? (document : Document) : Option Config :=
  ConfigField.all.foldlM document.overlay? {}

/-- The document that a JSON value is: an object, or an array that states the first few parts
without their names. -/
def ofJson? : Json → Option Document
  | .object members => members.mapM fun (name, value) => name.map fun name =>
      (name, DocumentValue.ofJson value)
  | .array items =>
    if items.length ≤ ConfigField.all.length then
      some ((ConfigField.all.map ConfigField.name).zip (items.map DocumentValue.ofJson))
    else
      none
  | _ => none

def ofToml (entries : Toml.Entries) : Document :=
  entries.map fun (name, value) => (name, DocumentValue.ofToml value)

end Document

namespace Config

def ofJson? (json : Json) : Option Config :=
  (Document.ofJson? json).bind Document.config?

def ofToml? (entries : Toml.Entries) : Option Config :=
  (Document.ofToml entries).config?

def ofJsonText? (text : Text) : Option Config :=
  (Json.parse? text).bind ofJson?

def ofTomlText? (text : Text) : Option Config :=
  (Toml.parse? text).bind ofToml?

/-- The settings that make a configuration of any other. -/
def settings (config : Config) : List Setting :=
  [.whitespace config.whitespace, .quotes config.quotes, .escapes config.escapes,
    .escapedQuotes config.escapedQuotes, .ansiC config.ansiC, .locale config.locale]

/-- The JSON object that states all parts of a configuration. -/
def toJson (config : Config) : Json :=
  .object (config.settings.map fun setting => (some setting.field.name, setting.value.toJson))

end Config

end ShellWords
