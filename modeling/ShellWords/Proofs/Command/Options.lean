import Mathlib.Data.List.Induction
import ShellWords.Proofs.Command.Grammar

/-! How options come of what switches ask for. `Grants` follows them one by one, as a reader meets
them, and `grants_iff` says when they are all accepted and what the options are then. -/

namespace ShellWords

namespace Options

variable {options options' options'' : Options} {switch : Switch} {wish : Wish}
  {wishes others before after : List Wish}

/-! ### One switch -/

/-- Options with what one more switch asks for. -/
def grant (options : Options) : Wish → Options
  | .output format => { options with output := some format }
  | .config path => { options with config := some path }
  | .noAnsiC => { options with noAnsiC := true }
  | .noLocale => { options with noLocale := true }
  | .verbose => { options with verbosity := options.verbosity + 1 }

/-- Whether a switch must not stand again. -/
def isSettled (options : Options) : Switch → Bool
  | .output => options.output.isSome
  | .config => options.config.isSome
  | .noAnsiC => options.noAnsiC
  | .noLocale => options.noLocale
  | _ => false

theorem isSettled_grant :
    (options.grant wish).isSettled switch = false ↔
      options.isSettled switch = false ∧ (wish.switch = switch → wish = .verbose) := by
  cases wish <;> cases switch <;> simp [isSettled, grant, Wish.switch]

/-! ### Switches one by one -/

/-- Options turn into others by what switches ask for in turn. -/
inductive Grants : Options → List Wish → Options → Prop where
  | nil {options : Options} : Grants options [] options
  | cons {options options' : Options} {wish : Wish} {wishes : List Wish}
    (hsettled : options.isSettled wish.switch = false)
    (hrest : Grants (options.grant wish) wishes options') :
    Grants options (wish :: wishes) options'

theorem grants_singleton :
    Grants options [wish] options' ↔
      options.isSettled wish.switch = false ∧ options' = options.grant wish := by
  constructor
  · rintro (_ | ⟨hsettled, _ | _⟩)
    exact ⟨hsettled, rfl⟩
  · rintro ⟨hsettled, rfl⟩
    exact .cons hsettled .nil

theorem Grants.append (h : Grants options wishes options') (h' : Grants options' others options'') :
    Grants options (wishes ++ others) options'' := by
  induction h with
  | nil => exact h'
  | cons hsettled _ ih => exact .cons hsettled (ih h')

theorem Grants.exists_of_append (h : Grants options (wishes ++ others) options'') :
    ∃ options', Grants options wishes options' ∧ Grants options' others options'' := by
  induction wishes generalizing options with
  | nil => exact ⟨options, .nil, h⟩
  | cons wish wishes ih =>
    cases h with
    | cons hsettled hrest =>
      obtain ⟨options', hwishes, hothers⟩ := ih hrest
      exact ⟨options', .cons hsettled hwishes, hothers⟩

theorem Grants.exists_of_cons (h : Grants options (wish :: wishes) options'') :
    ∃ options', Grants options [wish] options' ∧ Grants options' wishes options'' := by
  rw [← List.singleton_append] at h
  exact h.exists_of_append

theorem turnOn_eq_ok_iff :
    options.turnOn switch = .ok options' ↔
      ∃ wish ∈ [Wish.noAnsiC, .noLocale, .verbose], wish.switch = switch ∧
        Grants options [wish] options' := by
  simp only [grants_singleton, eq_comm (a := options')]
  cases switch with
  | noAnsiC => cases h : options.noAnsiC <;> simp [turnOn, isSettled, Wish.switch, grant, h]
  | noLocale => cases h : options.noLocale <;> simp [turnOn, isSettled, Wish.switch, grant, h]
  | verbose => simp [turnOn, isSettled, Wish.switch, grant]
  | output | config | help | version => simp [turnOn, Wish.switch]

theorem valued_output_iff {name : Text} {format : OutputFormat} :
    Valued .output name (.output format) ↔ OutputFormat.ofName? name = some format := by
  constructor
  · rintro (_ | _)
    · rfl
    · rfl
  · intro h
    simp only [OutputFormat.ofName?] at h
    split_ifs at h with htext hjson
    · cases h
      exact htext ▸ .text
    · cases h
      exact hjson ▸ .json

theorem setValue_eq_ok_iff {value : Text} :
    options.setValue switch value = .ok options' ↔
      ∃ wish, Valued switch value wish ∧ Grants options [wish] options' := by
  simp only [grants_singleton]
  constructor
  · intro h
    simp only [setValue] at h
    split at h
    · next format houtput hname =>
      cases h
      exact ⟨_, valued_output_iff.2 hname, by simp [isSettled, Wish.switch, houtput], rfl⟩
    · next hconfig =>
      split at h
      · cases h
      · next hempty =>
        cases h
        exact ⟨_, .path (by simpa using hempty), by simp [isSettled, Wish.switch, hconfig], rfl⟩
    · cases h
  · rintro ⟨wish, hvalue, hsettled, rfl⟩
    cases hvalue with
    | text | json =>
      have hnone : options.output = none := by simpa [isSettled, Wish.switch] using hsettled
      simp only [setValue, hnone, OutputFormat.ofName?, reduceIte]
      rfl
    | path hpath =>
      have hnone : options.config = none := by simpa [isSettled, Wish.switch] using hsettled
      simp [setValue, hnone, grant, hpath]

/-! ### All switches in one place -/

/-- The options that come of what is asked for in one place. -/
def ofWishes (wishes : List Wish) : Options where
  output := (wishes.filterMap Wish.format?).getLast?
  config := (wishes.filterMap Wish.path?).getLast?
  noAnsiC := .noAnsiC ∈ wishes
  noLocale := .noLocale ∈ wishes
  verbosity := wishes.count .verbose

theorem ofWishes_concat : ofWishes (wishes ++ [wish]) = (ofWishes wishes).grant wish := by
  cases wish <;> simp [ofWishes, grant, Wish.format?, Wish.path?]

theorem isSettled_ofWishes :
    (ofWishes wishes).isSettled switch = false ↔
      ∀ wish ∈ wishes, wish.switch = switch → wish = .verbose := by
  induction wishes using List.reverseRecOn with
  | nil => cases switch <;> simp [ofWishes, isSettled]
  | append_singleton wishes wish ih =>
    rw [ofWishes_concat, isSettled_grant, ih, List.forall_mem_append, List.forall_mem_singleton]

theorem once_concat :
    Wish.Once (wishes ++ [wish]) ↔
      Wish.Once wishes ∧ (ofWishes wishes).isSettled wish.switch = false := by
  rw [isSettled_ofWishes]
  simp [Wish.Once, List.pairwise_append]

theorem grants_iff :
    Grants {} wishes options ↔ Wish.Once wishes ∧ options = ofWishes wishes := by
  induction wishes using List.reverseRecOn generalizing options with
  | nil =>
    constructor
    · rintro (_ | _)
      exact ⟨.nil, rfl⟩
    · rintro ⟨-, rfl⟩
      exact .nil
  | append_singleton wishes wish ih =>
    rw [once_concat, ofWishes_concat]
    constructor
    · intro h
      obtain ⟨options', hwishes, hwish⟩ := h.exists_of_append
      obtain ⟨honce, rfl⟩ := ih.1 hwishes
      obtain ⟨hsettled, rfl⟩ := grants_singleton.1 hwish
      exact ⟨⟨honce, hsettled⟩, rfl⟩
    · rintro ⟨⟨honce, hsettled⟩, rfl⟩
      exact (ih.2 ⟨honce, rfl⟩).append (grants_singleton.2 ⟨hsettled, rfl⟩)

/-! ### Before and after the name of a command -/

theorem meets_merge (before after : List Wish) :
    ((ofWishes before).merge (ofWishes after)).Meets before after where
  output := by simp [merge, ofWishes, List.getLast?_append]
  config := by simp [merge, ofWishes, List.getLast?_append]
  noAnsiC := by simp [merge, ofWishes]
  noLocale := by simp [merge, ofWishes]
  verbosity := by simp only [merge, ofWishes, List.count_eq_zero, ite_not]

theorem Meets.unique (h : options.Meets before after) (h' : options'.Meets before after) :
    options = options' := by
  obtain ⟨output, config, noAnsiC, noLocale, verbosity⟩ := options
  obtain ⟨output', config', noAnsiC', noLocale', verbosity'⟩ := options'
  rw [mk.injEq]
  exact ⟨h.output.trans h'.output.symm, h.config.trans h'.config.symm,
    Bool.eq_iff_iff.2 (h.noAnsiC.trans h'.noAnsiC.symm),
    Bool.eq_iff_iff.2 (h.noLocale.trans h'.noLocale.symm), h.verbosity.trans h'.verbosity.symm⟩

theorem meets_iff :
    options.Meets before after ↔ options = (ofWishes before).merge (ofWishes after) := by
  constructor
  · intro h
    exact h.unique (meets_merge before after)
  · rintro rfl
    exact meets_merge before after

end Options

end ShellWords
