import ShellWords.Config.Document
import ShellWords.Proofs.Reader

/-! What a document makes of the default configuration. Each part gets the value that is stated
under its name, or keeps the one that it has; a part that is stated twice, or with a value that no
configuration has there, leaves no configuration at all. -/

namespace ShellWords

namespace DocumentValue

/-- The ways to write a value, given those to write a character: a text in quotes, or a switch. -/
inductive Written (spells : Char → Text → Prop) : DocumentValue → Text → Prop where
  | text {chars written : Text} (h : Text.Spelled spells chars written) :
    Written spells (.text chars) ('"' :: written ++ ['"'])
  | enabled : Written spells (.flag true) ['t', 'r', 'u', 'e']
  | disabled : Written spells (.flag false) ['f', 'a', 'l', 's', 'e']

theorem exists_written {spells : Char → Text → Prop} (h : ∀ c, ∃ spelled, spells c spelled)
    {value : DocumentValue} (hvalue : value ≠ .other) :
    ∃ written, value.Written spells written := by
  choose spell hspell using h
  cases value with
  | text chars => exact ⟨_, .text (.flatMap hspell chars)⟩
  | flag enabled =>
    cases enabled with
    | true => exact ⟨_, .enabled⟩
    | false => exact ⟨_, .disabled⟩
  | other => exact absurd rfl hvalue

end DocumentValue

/-! ### The parts of a configuration -/

theorem ConfigField.mem_all (field : ConfigField) : field ∈ all := by
  cases field <;> decide

/-- What a configuration has for one of its parts. -/
def Config.value (config : Config) : ConfigField → DocumentValue
  | .whitespace => .text config.whitespace
  | .quotes => .text config.quotes
  | .escapes => .text config.escapes
  | .escapedQuotes => .text config.escapedQuotes
  | .ansiC => .flag config.ansiC
  | .locale => .flag config.locale

/-- A configuration has no more than its parts. -/
theorem Config.ext_value {a b : Config} (h : ∀ field, a.value field = b.value field) : a = b := by
  obtain ⟨whitespace, quotes, escapes, escapedQuotes, ansiC, locale⟩ := a
  obtain ⟨rfl⟩ : b.whitespace = whitespace := (DocumentValue.text.inj (h .whitespace)).symm
  obtain ⟨rfl⟩ : b.quotes = quotes := (DocumentValue.text.inj (h .quotes)).symm
  obtain ⟨rfl⟩ : b.escapes = escapes := (DocumentValue.text.inj (h .escapes)).symm
  obtain ⟨rfl⟩ : b.escapedQuotes = escapedQuotes :=
    (DocumentValue.text.inj (h .escapedQuotes)).symm
  obtain ⟨rfl⟩ : b.ansiC = ansiC := (DocumentValue.flag.inj (h .ansiC)).symm
  obtain ⟨rfl⟩ : b.locale = locale := (DocumentValue.flag.inj (h .locale)).symm
  rfl

/-- A setting replaces the part that it is about and no other one. -/
theorem Config.value_set (config : Config) (setting : Setting) (field : ConfigField) :
    (config.set setting).value field =
      if field = setting.field then setting.value else config.value field := by
  cases setting <;> cases field <;> rfl

/-- The value is of the kind that configurations have for a part. -/
def ConfigField.Fits (field : ConfigField) (value : DocumentValue) : Prop :=
  ∃ config : Config, config.value field = value

theorem ConfigField.setting?_of_fits {field : ConfigField} {value : DocumentValue}
    (h : field.Fits value) :
    ∃ setting, field.setting? value = some setting ∧ setting.field = field ∧
      setting.value = value := by
  obtain ⟨config, rfl⟩ := h
  cases field <;> exact ⟨_, rfl, rfl, rfl⟩

theorem ConfigField.setting?_of_not_fits {field : ConfigField} {value : DocumentValue}
    (h : ¬field.Fits value) : field.setting? value = none := by
  cases hsetting : field.setting? value with
  | none => rfl
  | some setting =>
    refine absurd ⟨Config.set {} setting, ?_⟩ h
    cases field <;> cases value <;> cases hsetting <;> rfl

namespace Document

variable {document : Document}

/-! ### What a document states -/

/-- No name comes twice, and the parts have values of their kinds. -/
structure WellFormed (document : Document) : Prop where
  nodup : (document.map Prod.fst).Nodup
  fits : ∀ field value, (ConfigField.name field, value) ∈ document → field.Fits value

/-- A part is stated twice, or with a value that is not of its kind. -/
def Faulty (document : Document) : Prop :=
  ∃ field : ConfigField, 1 < (document.map Prod.fst).count field.name ∨
    ∃ value, (field.name, value) ∈ document ∧ ¬field.Fits value

theorem mem_valuesOf {name : Text} {value : DocumentValue} :
    value ∈ document.valuesOf name ↔ (name, value) ∈ document := by
  simp [valuesOf]

theorem length_valuesOf (document : Document) (name : Text) :
    (document.valuesOf name).length = (document.map Prod.fst).count name := by
  rw [valuesOf, List.length_map, ← List.countP_eq_length_filter, List.count, List.countP_map]
  rfl

theorem valuesOf_of_nodup (h : (document.map Prod.fst).Nodup) (name : Text) :
    document.valuesOf name = (document.lookup name).toList := by
  induction document with
  | nil => rfl
  | cons entry document ih =>
    obtain ⟨other, value⟩ := entry
    obtain ⟨hother, hnodup⟩ := List.nodup_cons.1 h
    by_cases hname : other = name
    · subst hname
      have hrest : valuesOf document other = [] := by
        refine List.eq_nil_iff_forall_not_mem.2 fun again hagain => hother ?_
        exact List.mem_map.2 ⟨(other, again), mem_valuesOf.1 hagain, rfl⟩
      have hfirst : valuesOf ((other, value) :: document) other =
          value :: valuesOf document other := by
        simp [valuesOf]
      rw [hfirst, hrest, List.lookup_cons_self]
      rfl
    · have hfirst : valuesOf ((other, value) :: document) name = valuesOf document name := by
        simp [valuesOf, hname]
      have hlookup : List.lookup name ((other, value) :: document) = document.lookup name := by
        simp [List.lookup_cons, beq_eq_false_iff_ne.2 (Ne.symm hname)]
      rw [hfirst, hlookup, ih hnodup]

theorem lookup_of_mem (h : (document.map Prod.fst).Nodup) {name : Text} {value : DocumentValue}
    (hmem : (name, value) ∈ document) : document.lookup name = some value := by
  have hvalue := mem_valuesOf.2 hmem
  rw [valuesOf_of_nodup h] at hvalue
  exact Option.mem_toList.1 hvalue

/-! ### Overlaying -/

/-- A part gets the value that is stated for it, and the others keep theirs. -/
theorem WellFormed.overlay? (h : document.WellFormed) (config : Config) (field : ConfigField) :
    ∃ after, document.overlay? config field = some after ∧ ∀ other, after.value other =
      if other = field then (document.lookup other.name).getD (config.value other)
      else config.value other := by
  unfold Document.overlay?
  rw [valuesOf_of_nodup h.nodup]
  cases hlookup : document.lookup field.name with
  | none =>
    refine ⟨config, rfl, fun other => ?_⟩
    by_cases hother : other = field
    · rw [if_pos hother, hother, hlookup, Option.getD_none]
    · rw [if_neg hother]
  | some value =>
    have hmem : (field.name, value) ∈ document := by
      rw [← mem_valuesOf, valuesOf_of_nodup h.nodup, hlookup]
      exact List.mem_singleton_self value
    obtain ⟨setting, hsetting, hfield, hvalue⟩ := ConfigField.setting?_of_fits (h.fits _ _ hmem)
    refine ⟨config.set setting, congrArg (Option.map config.set) hsetting, fun other => ?_⟩
    rw [Config.value_set, hfield, hvalue]
    by_cases hother : other = field
    · rw [if_pos hother, if_pos hother, hother, hlookup, Option.getD_some]
    · rw [if_neg hother, if_neg hother]

theorem WellFormed.foldlM_overlay? (h : document.WellFormed) (fields : List ConfigField)
    (config : Config) :
    ∃ after, fields.foldlM document.overlay? config = some after ∧ ∀ other, after.value other =
      if other ∈ fields then (document.lookup other.name).getD (config.value other)
      else config.value other := by
  induction fields generalizing config with
  | nil => exact ⟨config, rfl, fun other => (if_neg List.not_mem_nil).symm⟩
  | cons field fields ih =>
    obtain ⟨middle, hmiddle, hfield⟩ := h.overlay? config field
    obtain ⟨after, hafter, hfields⟩ := ih middle
    refine ⟨after, by rw [List.foldlM_cons, hmiddle]; exact hafter, fun other => ?_⟩
    rw [hfields, hfield]
    -- a part that comes twice gets the same value again
    by_cases hother : other = field
    · have hmem : other ∈ field :: fields := hother ▸ List.mem_cons_self
      rw [if_pos hother, if_pos hmem]
      cases document.lookup other.name with
      | none => exact ite_self _
      | some value => exact ite_self _
    · rw [if_neg hother]
      simp only [List.mem_cons, hother, false_or]

/-- A well-formed document replaces the parts of the default configuration that it states. -/
theorem WellFormed.config? (h : document.WellFormed) :
    ∃ config, document.config? = some config ∧ ∀ field, config.value field =
      (document.lookup field.name).getD (Config.value {} field) := by
  obtain ⟨config, hconfig, hvalue⟩ := h.foldlM_overlay? ConfigField.all {}
  exact ⟨config, hconfig, fun field => (hvalue field).trans (if_pos field.mem_all)⟩

/-- A document that states all parts of a configuration replaces all of the default one. -/
theorem config?_of_full (h : (document.map Prod.fst).Nodup) {config : Config}
    (hall : ∀ field, (ConfigField.name field, config.value field) ∈ document) :
    document.config? = some config := by
  have hlookup := fun field => lookup_of_mem h (hall field)
  have hformed : document.WellFormed := by
    refine ⟨h, fun field value hmem => ⟨config, ?_⟩⟩
    have hvalue := lookup_of_mem h hmem
    rw [hlookup field] at hvalue
    exact Option.some.inj hvalue
  obtain ⟨after, hafter, hvalue⟩ := hformed.config?
  rw [hafter]
  refine congrArg some (Config.ext_value fun field => ?_)
  rw [hvalue, hlookup, Option.getD_some]

theorem foldlM_overlay?_eq_none {field : ConfigField}
    (h : ∀ config, document.overlay? config field = none) {fields : List ConfigField}
    (hmem : field ∈ fields) (config : Config) : fields.foldlM document.overlay? config = none := by
  induction fields generalizing config with
  | nil => cases hmem
  | cons other fields ih =>
    rw [List.foldlM_cons]
    cases hother : document.overlay? config other with
    | none => rfl
    | some after =>
      rcases List.mem_cons.1 hmem with rfl | hmem
      · rw [h config] at hother
        cases hother
      · exact ih hmem after

theorem Faulty.config? (h : document.Faulty) : document.config? = none := by
  obtain ⟨field, hfield⟩ := h
  have hoverlay : ∀ config, document.overlay? config field = none := by
    intro config
    unfold Document.overlay?
    match hvalues : document.valuesOf field.name with
    | [] =>
      exfalso
      rcases hfield with htwice | ⟨value, hmem, -⟩
      · rw [← length_valuesOf, hvalues] at htwice
        exact Nat.not_lt_zero _ htwice
      · rw [← mem_valuesOf, hvalues] at hmem
        exact List.not_mem_nil hmem
    | [value] =>
      rcases hfield with htwice | ⟨stated, hmem, hstated⟩
      · rw [← length_valuesOf, hvalues] at htwice
        exact absurd htwice (Nat.lt_irrefl 1)
      · rw [← mem_valuesOf, hvalues, List.mem_singleton] at hmem
        subst hmem
        show (field.setting? stated).map config.set = none
        rw [ConfigField.setting?_of_not_fits hstated]
        rfl
    | _ :: _ :: _ => rfl
  exact foldlM_overlay?_eq_none hoverlay field.mem_all {}

end Document

end ShellWords
