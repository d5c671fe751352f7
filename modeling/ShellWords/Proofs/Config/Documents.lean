import ShellWords.Proofs.Config.Json
import ShellWords.Proofs.Config.Overlay
import ShellWords.Proofs.Config.Toml

/-! Configurations from texts. A JSON object and lines of TOML that state the same entries make the
same of the default configuration, however they are written: it gets the values that are stated and
keeps the others. -/

namespace ShellWords

/-- The ways in which documents are written. -/
inductive DocumentFormat where
  | json
  | toml
deriving DecidableEq, Repr

namespace DocumentFormat

/-- The configuration that a text is read as. -/
def config? : DocumentFormat → Text → Option Config
  | json => Config.ofJsonText?
  | toml => Config.ofTomlText?

/-- The text writes a document, with blanks and spellings of strings at will. -/
def Writes : DocumentFormat → Document → Text → Prop
  | json => Json.WritesObject
  | toml => Toml.WritesLines

/-- The text is read as an object, or as pairs, with the names and values of a document. -/
def States : DocumentFormat → Document → Text → Prop
  | json, document, text => ∃ members : List (Text × Json),
    Json.parse? text = some (.object (members.map fun member => (some member.1, member.2))) ∧
      document = members.map fun member => (member.1, .ofJson member.2)
  | toml, document, text => ∃ pairs : List (Text × Toml.Value),
    Toml.document.readAll? text = some (pairs.map .ofPair) ∧
      document = pairs.map fun pair => (pair.1, .ofToml pair.2)

end DocumentFormat

theorem DocumentValue.ofJson_toJson (value : DocumentValue) : ofJson value.toJson = value := by
  cases value with
  | text | flag | other => rfl

theorem DocumentValue.ofToml_toToml (value : DocumentValue) : ofToml value.toToml = value := by
  cases value with
  | text | flag | other => rfl

namespace Document

variable {document : Document} {text : Text}

theorem ofJson?_object (members : List (Text × Json)) :
    ofJson? (.object (members.map fun member => (some member.1, member.2))) =
      some (members.map fun member => (member.1, .ofJson member.2)) := by
  rw [ofJson?]
  induction members with
  | nil => rfl
  | cons member members ih =>
    rw [List.map_cons, List.mapM_cons, ih]
    rfl

end Document

namespace DocumentFormat

variable {format : DocumentFormat} {document : Document} {text : Text}

/-- A written document is read as what it states, strings and all. -/
theorem Writes.states (h : format.Writes document text) : format.States document text := by
  cases format with
  | json =>
    refine ⟨document.map fun entry => (entry.1, entry.2.toJson), ?_, ?_⟩
    · rw [Json.parse?_object h, List.map_map]
      rfl
    · rw [List.map_map]
      refine (List.map_id'' (fun entry => ?_) document).symm
      exact Prod.ext rfl entry.2.ofJson_toJson
  | toml =>
    refine ⟨document.map fun entry => (entry.1, entry.2.toToml), ?_, ?_⟩
    · rw [Toml.document_written h, List.map_map]
      rfl
    · rw [List.map_map]
      refine (List.map_id'' (fun entry => ?_) document).symm
      exact Prod.ext rfl entry.2.ofToml_toToml

theorem exists_writes (h : ∀ entry ∈ document, entry.2 ≠ .other) (format : DocumentFormat) :
    ∃ text, format.Writes document text := by
  cases format with
  | json => exact ⟨_, Json.writesObject_print h⟩
  | toml => exact Toml.exists_lines h

theorem config?_json (h : json.States document text) : json.config? text = document.config? := by
  obtain ⟨members, hparse, rfl⟩ := h
  show (Json.parse? text).bind Config.ofJson? = _
  rw [hparse]
  show (Document.ofJson? _).bind Document.config? = _
  rw [Document.ofJson?_object]
  rfl

/-- In TOML no name at all may come twice. -/
theorem config?_toml (h : toml.States document text) :
    toml.config? text = if (document.map Prod.fst).Nodup then document.config? else none := by
  obtain ⟨pairs, hread, rfl⟩ := h
  have hparse : Toml.parse? text = if (pairs.map Prod.fst).Nodup then some pairs else none := by
    rw [Toml.parse?, hread]
    exact Toml.define?_ofPair pairs
  have hnames : (pairs.map fun pair => (pair.1, DocumentValue.ofToml pair.2)).map Prod.fst =
      pairs.map Prod.fst := by
    rw [List.map_map]
    rfl
  show (Toml.parse? text).bind Config.ofToml? = _
  rw [hparse, hnames]
  split
  · rfl
  · rfl

theorem States.config?_of_nodup (h : format.States document text)
    (hnodup : (document.map Prod.fst).Nodup) : format.config? text = document.config? := by
  cases format with
  | json => exact config?_json h
  | toml => exact (config?_toml h).trans (if_pos hnodup)

theorem States.config?_of_faulty (h : format.States document text) (hfaulty : document.Faulty) :
    format.config? text = none := by
  cases format with
  | json => exact (config?_json h).trans hfaulty.config?
  | toml => rw [config?_toml h, hfaulty.config?, ite_self]

end DocumentFormat

/-- A configuration that is printed is read back. -/
theorem Config.ofJsonText?_print (config : Config) :
    Config.ofJsonText? config.toJson.print = some config := by
  let document : Document := ConfigField.all.map fun field => (field.name, config.value field)
  have hother : ∀ entry ∈ document, entry.2 ≠ .other := by
    intro entry hentry
    obtain ⟨field, -, rfl⟩ := List.mem_map.1 hentry
    cases field <;> exact nofun
  have hstates : DocumentFormat.json.States document config.toJson.print :=
    DocumentFormat.Writes.states (Json.writesObject_print hother)
  have hnodup : (document.map Prod.fst).Nodup := by
    show (ConfigField.all.map ConfigField.name).Nodup
    decide
  have hall : ∀ field, (ConfigField.name field, config.value field) ∈ document :=
    fun field => List.mem_map.2 ⟨field, field.mem_all, rfl⟩
  exact (hstates.config?_of_nodup hnodup).trans (Document.config?_of_full hnodup hall)

/-- A document without names that come twice and with values of the right kinds makes the
configuration that has these values and otherwise the default ones, in either format and however
it is written. It makes any configuration all of whose parts it states. Where it states a part
twice, or with a value of another kind, it makes none. -/
theorem config_overlay (format : DocumentFormat) :
    (∀ document, (∀ entry ∈ document, entry.2 ≠ .other) → ∃ text, format.Writes document text) ∧
    (∀ document text, format.Writes document text → format.States document text) ∧
    (∀ document text, format.States document text → document.WellFormed →
      ∃ config, format.config? text = some config ∧ ∀ field, config.value field =
        (document.lookup field.name).getD (Config.value {} field)) ∧
    (∀ document text (config : Config), format.States document text →
      (document.map Prod.fst).Nodup → (∀ field, (field.name, config.value field) ∈ document) →
      format.config? text = some config) ∧
    ∀ document text, format.States document text → document.Faulty →
      format.config? text = none := by
  refine ⟨fun document h => ?_, fun document text h => h.states, fun document text h hformed => ?_,
    fun document text config h hnodup hall => ?_, fun document text h => h.config?_of_faulty⟩
  · exact DocumentFormat.exists_writes h format
  · rw [h.config?_of_nodup hformed.nodup]
    exact hformed.config?
  · rw [h.config?_of_nodup hnodup]
    exact Document.config?_of_full hnodup hall

/-- A backslash and a caret as the escape characters, all of the default configuration, and a text
in the place of a switch. -/
theorem config_overlay_escapes :
    (∃ config, DocumentFormat.json.config? "\x7b\"escapes\":\"\\\\^\"\x7d".toList = some config ∧
      config.value .escapes = .text ['\\', '^'] ∧ config.value .ansiC = .flag true) ∧
    (∃ config, DocumentFormat.toml.config? "escapes = \"\\\\^\"\n".toList = some config ∧
      config.value .escapes = .text ['\\', '^'] ∧ config.value .ansiC = .flag true) ∧
    (∃ text, DocumentFormat.toml.Writes
        (ConfigField.all.map fun field => (field.name, Config.value {} field)) text ∧
      DocumentFormat.toml.config? text = some {}) ∧
    ∃ text, DocumentFormat.toml.Writes [("ansi_c_quotes".toList, .text "yes".toList)] text ∧
      DocumentFormat.toml.config? text = none := by
  have hjson : DocumentFormat.json.Writes [("escapes".toList, .text ['\\', '^'])]
      "\x7b\"escapes\":\"\\\\^\"\x7d".toList := by
    have hkey : Text.Spelled Json.Spells "escapes".toList _ := .flatMap Json.spells_printChar _
    have hvalue : Text.Spelled Json.Spells ['\\', '^'] _ := .flatMap Json.spells_printChar _
    exact Json.WritesObject.members Json.blank_nil (.single (.intro Json.blank_nil hkey
      Json.blank_nil Json.blank_nil (.text hvalue) Json.blank_nil)) Json.blank_nil
  have htoml : DocumentFormat.toml.Writes [("escapes".toList, .text ['\\', '^'])]
      "escapes = \"\\\\^\"\n".toList := by
    have hbare : "escapes".toList.all Toml.isBareKeyChar = true := rfl
    have hkey : Toml.WritesKey "escapes".toList _ :=
      .bare (by decide) fun c hc => Toml.isBareKeyChar_iff.1 (List.all_eq_true.1 hbare c hc)
    have hblank : Toml.Blank [' '] := by simp [Toml.Blank]
    have hbackslash : Toml.Spells '\\' ['\\', '\\'] := .letter (by decide)
    have hcaret : Toml.Spells '^' _ := .raw (by decide) (by decide) (by decide)
    exact Toml.WritesLines.cons (.intro Toml.blank_nil hkey hblank hblank
      (.text (.cons hbackslash (.cons hcaret .nil))) Toml.blank_nil) (.feed [])
      (.nil Toml.blank_nil)
  have hformed : Document.WellFormed [("escapes".toList, .text ['\\', '^'])] := by
    refine ⟨by decide, fun field value hmem => ?_⟩
    obtain ⟨hname, rfl⟩ := Prod.mk.inj (List.mem_singleton.1 hmem)
    cases field with
    | escapes => exact ⟨{ escapes := ['\\', '^'] }, rfl⟩
    | whitespace | quotes | escapedQuotes | ansiC | locale => exact absurd hname (by decide)
  have hoverlay : ∀ format : DocumentFormat, ∀ text,
      format.Writes [("escapes".toList, .text ['\\', '^'])] text →
      ∃ config, format.config? text = some config ∧ config.value .escapes = .text ['\\', '^'] ∧
        config.value .ansiC = .flag true := by
    intro format text hwrites
    obtain ⟨config, hconfig, hvalue⟩ := (config_overlay format).2.2.1 _ _
      ((config_overlay format).2.1 _ _ hwrites) hformed
    exact ⟨config, hconfig, hvalue .escapes, hvalue .ansiC⟩
  refine ⟨hoverlay .json _ hjson, hoverlay .toml _ htoml, ?_, ?_⟩
  · obtain ⟨text, hwrites⟩ := (config_overlay .toml).1
      (ConfigField.all.map fun field => (field.name, Config.value {} field)) (by decide)
    exact ⟨text, hwrites, (config_overlay .toml).2.2.2.1 _ _ {}
      ((config_overlay .toml).2.1 _ _ hwrites) (by decide)
      fun field => List.mem_map.2 ⟨field, field.mem_all, rfl⟩⟩
  · obtain ⟨text, hwrites⟩ := (config_overlay .toml).1
      [("ansi_c_quotes".toList, .text "yes".toList)] (by decide)
    refine ⟨text, hwrites, (config_overlay .toml).2.2.2.2 _ _
      ((config_overlay .toml).2.1 _ _ hwrites) ⟨.ansiC, .inr ⟨_, List.mem_singleton_self _, ?_⟩⟩⟩
    rintro ⟨config, hconfig⟩
    cases hconfig

end ShellWords
