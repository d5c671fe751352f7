import Mathlib.Data.List.TakeDrop
import ShellWords.Proofs.Command.Options

/-! How the reader takes the switches of one argument. It accepts long names and letters just as the
grammar spells them, and the options are then those that the switches ask for. -/

namespace ShellWords

theorem bind_eq_ok_iff {ε α β : Type} {x : Except ε α} {next : α → Except ε β} {b : β} :
    x >>= next = .ok b ↔ ∃ a, x = .ok a ∧ next a = .ok b := by
  cases x with
  | error error =>
    constructor
    · intro h
      cases h
    · rintro ⟨a, ha, -⟩
      cases ha
  | ok a =>
    constructor
    · intro h
      exact ⟨a, rfl, h⟩
    · rintro ⟨a', ha, h⟩
      cases ha
      exact h

theorem eq_of_ofList_eq {text : Text} {word : String} (h : String.ofList text = word) :
    text = word.toList := by
  rw [← h, String.toList_ofList]

/-- A text goes on with a character from the first place on that has it, if there is one. -/
theorem eq_takeWhile_ne (c : Char) (text : Text) :
    text = text.takeWhile (· ≠ c) ∨ ∃ after, text = text.takeWhile (· ≠ c) ++ c :: after := by
  have htext := List.takeWhile_append_dropWhile (p := fun d => decide (d ≠ c)) (l := text)
  have hhead := List.head?_dropWhile_not (fun d => decide (d ≠ c)) text
  cases hafter : text.dropWhile (· ≠ c) with
  | nil =>
    rw [hafter, List.append_nil] at htext
    exact .inl htext.symm
  | cons d after =>
    rw [hafter] at htext hhead
    obtain rfl : d = c := by simpa using hhead
    exact .inr ⟨after, htext.symm⟩

/-! ### Names of switches -/

namespace Switch

variable {scope : Scope} {name value : Text} {switch : Switch} {wish : Wish}

def longName : Switch → Text
  | output => "output".toList
  | config => "config".toList
  | noAnsiC => "no-ansi-c".toList
  | noLocale => "no-locale".toList
  | verbose => "verbose".toList
  | help => "help".toList
  | version => "version".toList

theorem eq_longName_of_ofLong? (h : ofLong? scope name = some switch) :
    name = switch.longName ∧ (switch ≠ version ∨ scope = .program) := by
  obtain ⟨hlookup, hversion⟩ := Option.filter_eq_some_iff.1 h
  obtain ⟨front, rest, htable, -⟩ := List.lookup_eq_some_iff.1 hlookup
  have hmem : (String.ofList name, switch) ∈ front ++ (String.ofList name, switch) :: rest :=
    List.mem_append_right front List.mem_cons_self
  rw [← htable] at hmem
  have hname : name = switch.longName := by
    simp only [List.mem_cons, Prod.mk.injEq, List.not_mem_nil, or_false] at hmem
    rcases hmem with ⟨hword, rfl⟩ | ⟨hword, rfl⟩ | ⟨hword, rfl⟩ | ⟨hword, rfl⟩ | ⟨hword, rfl⟩ |
      ⟨hword, rfl⟩ | ⟨hword, rfl⟩
    all_goals exact eq_of_ofList_eq hword
  exact ⟨hname, by simpa using hversion⟩

theorem mem_longNames_iff : name ∈ longNames ↔ ∃ switch ≠ version, longName switch = name := by
  have hnames : longNames = [output, config, noAnsiC, noLocale, verbose, help].map longName := rfl
  rw [hnames, List.mem_map]
  have hmem : ∀ switch, switch ∈ [output, config, noAnsiC, noLocale, verbose, help] ↔
      switch ≠ version := by
    intro switch
    cases switch <;> decide
  simp only [hmem, ne_eq]

theorem isSome_ofLong?_join : (ofLong? .join name).isSome = true ↔ name ∈ longNames := by
  rw [mem_longNames_iff]
  constructor
  · intro h
    obtain ⟨switch, hswitch⟩ := Option.isSome_iff_exists.1 h
    obtain ⟨rfl, hversion⟩ := eq_longName_of_ofLong? hswitch
    exact ⟨switch, hversion.resolve_right (by decide), rfl⟩
  · rintro ⟨switch, hversion, rfl⟩
    cases switch with
    | version => exact absurd rfl hversion
    | output | config | noAnsiC | noLocale | verbose | help => rfl

theorem longName_awaiting (h : switch.takesValue = true) :
    LongName switch.longName [] (some switch) := by
  cases switch with
  | output => exact .output
  | config => exact .config
  | noAnsiC | noLocale | verbose | help | version => cases h

theorem longName_of_wish (h : wish ∈ [Wish.noAnsiC, .noLocale, .verbose]) :
    LongName wish.switch.longName [wish] none := by
  cases wish with
  | noAnsiC => exact .noAnsiC
  | noLocale => exact .noLocale
  | verbose => exact .verbose
  | output format | config path => simp at h

theorem longName_of_valued (h : Valued switch value wish) :
    LongName (switch.longName ++ '=' :: value) [wish] none := by
  cases switch with
  | output => exact .outputIs h
  | config => exact .configIs h
  | noAnsiC | noLocale | verbose | help | version => cases h

end Switch

namespace ArgumentReader

variable {reader reader' : ArgumentReader}

theorem setValue_eq_ok_iff (hawaiting : reader.awaiting = none) {switch : Switch} {value : Text} :
    (do return { reader with options := ← reader.options.setValue switch value }) = .ok reader' ↔
      ∃ wish options, Valued switch value wish ∧ reader.options.Grants [wish] options ∧
        { reader with options, awaiting := none } = reader' := by
  rw [bind_eq_ok_iff, ← hawaiting]
  constructor
  · rintro ⟨options, hset, h⟩
    obtain ⟨wish, hvalue, hgrants⟩ := Options.setValue_eq_ok_iff.1 hset
    exact ⟨wish, options, hvalue, hgrants, Except.ok.inj h⟩
  · rintro ⟨wish, options, hvalue, hgrants, rfl⟩
    exact ⟨options, Options.setValue_eq_ok_iff.2 ⟨wish, hvalue, hgrants⟩, rfl⟩

theorem turnOn_eq_ok_iff (hawaiting : reader.awaiting = none) {switch : Switch} :
    (do return { reader with options := ← reader.options.turnOn switch }) = .ok reader' ↔
      ∃ wish ∈ [Wish.noAnsiC, .noLocale, .verbose], wish.switch = switch ∧
        ∃ options, reader.options.Grants [wish] options ∧
          { reader with options, awaiting := none } = reader' := by
  rw [bind_eq_ok_iff, ← hawaiting]
  constructor
  · rintro ⟨options, hturn, h⟩
    obtain ⟨wish, hwish, hswitch, hgrants⟩ := Options.turnOn_eq_ok_iff.1 hturn
    exact ⟨wish, hwish, hswitch, options, hgrants, Except.ok.inj h⟩
  · rintro ⟨wish, hwish, hswitch, options, hgrants, rfl⟩
    exact ⟨options, Options.turnOn_eq_ok_iff.2 ⟨wish, hwish, hswitch, hgrants⟩, rfl⟩

/-! ### Long names -/

theorem readLong_plain {name : Text} {switch : Switch}
    (h : Switch.ofLong? reader.scope name = some switch) :
    reader.readLong name =
      if switch.takesValue then .ok { reader with awaiting := some switch }
      else do return { reader with options := ← reader.options.turnOn switch } := by
  obtain ⟨rfl, -⟩ := Switch.eq_longName_of_ofLong? h
  have hcut : switch.longName.span (· ≠ '=') = (switch.longName, []) := by
    cases switch <;> rfl
  simp only [readLong, hcut, h]
  rfl

theorem readLong_valued {name value : Text} {switch : Switch}
    (h : Switch.ofLong? reader.scope name = some switch) :
    reader.readLong (name ++ '=' :: value) =
      (do return { reader with options := ← reader.options.setValue switch value }) := by
  obtain ⟨rfl, -⟩ := Switch.eq_longName_of_ofLong? h
  have hcut : (switch.longName ++ '=' :: value).span (· ≠ '=') =
      (switch.longName, '=' :: value) := by
    cases switch <;> rfl
  simp only [readLong, hcut, h]

theorem readLong_unknown {name : Text}
    (h : Switch.ofLong? reader.scope (name.takeWhile (· ≠ '=')) = none) :
    reader.readLong name ≠ .ok reader' := by
  intro hok
  simp only [readLong, List.span_eq_takeWhile_dropWhile, h] at hok
  cases hok

theorem readLong_eq_ok_iff (hawaiting : reader.awaiting = none) {name : Text} :
    reader.readLong name = .ok reader' ↔
      ∃ wishes awaiting options, LongName name wishes awaiting ∧
        reader.options.Grants wishes options ∧ { reader with options, awaiting } = reader' := by
  constructor
  · intro h
    cases hswitch : Switch.ofLong? reader.scope (name.takeWhile (· ≠ '=')) with
    | none => exact absurd h (readLong_unknown hswitch)
    | some switch =>
      have hlong := (Switch.eq_longName_of_ofLong? hswitch).1
      obtain hname | ⟨value, hname⟩ := eq_takeWhile_ne '=' name
      · rw [hname, readLong_plain hswitch] at h
        rw [hname, hlong]
        split at h
        · next htakes =>
          exact ⟨[], some switch, reader.options, Switch.longName_awaiting htakes, .nil,
            Except.ok.inj h⟩
        · obtain ⟨wish, hwish, rfl, options, hgrants, rfl⟩ := (turnOn_eq_ok_iff hawaiting).1 h
          exact ⟨[wish], none, options, Switch.longName_of_wish hwish, hgrants, rfl⟩
      · rw [hname, readLong_valued hswitch] at h
        rw [hname, hlong]
        obtain ⟨wish, options, hvalue, hgrants, rfl⟩ := (setValue_eq_ok_iff hawaiting).1 h
        exact ⟨[wish], none, options, Switch.longName_of_valued hvalue, hgrants, rfl⟩
  · rintro ⟨wishes, awaiting, options, hname, hgrants, rfl⟩
    cases hname with
    | noAnsiC | noLocale | verbose =>
      exact (turnOn_eq_ok_iff hawaiting).2 ⟨_, by decide, rfl, options, hgrants, rfl⟩
    | output | config =>
      cases hgrants
      rfl
    | outputIs hvalue | configIs hvalue =>
      exact (setValue_eq_ok_iff hawaiting).2 ⟨_, options, hvalue, hgrants, rfl⟩

/-! ### Letters -/

theorem readLetters_verbose (reader : ArgumentReader) (letters : Text) :
    reader.readLetters ('v' :: letters) =
      { reader with options := reader.options.grant .verbose }.readLetters letters :=
  rfl

theorem readLetters_outputIs (value : Text) :
    reader.readLetters ('o' :: '=' :: value) =
      (do return { reader with options := ← reader.options.setValue .output value }) :=
  rfl

theorem readLetters_outputOn {c : Char} (hc : c ≠ '=') (value : Text) :
    reader.readLetters ('o' :: c :: value) =
      (do return { reader with options := ← reader.options.setValue .output (c :: value) }) := by
  simp only [readLetters, Switch.ofLetter?, Switch.takesValue, reduceIte]
  split
  · next heq => cases heq
  · next heq =>
    cases heq
    exact absurd rfl hc
  · rfl

theorem readLetters_other {letter : Char} (hv : letter ≠ 'v') (ho : letter ≠ 'o')
    (letters : Text) : reader.readLetters (letter :: letters) ≠ .ok reader' := by
  intro h
  simp only [readLetters, Switch.ofLetter?] at h
  split at h
  · next switch hswitch =>
    split at hswitch
    · exact ho rfl
    · exact hv rfl
    · cases hswitch
      cases h
    · split_ifs at hswitch
      cases hswitch
      cases h
    · cases hswitch
  · cases h

theorem head_ne_equals_of_valued {wish : Wish} {value : Text} (h : Valued .output value wish) :
    ∃ c rest, value = c :: rest ∧ c ≠ '=' := by
  cases h with
  | text => exact ⟨_, _, rfl, by decide⟩
  | json => exact ⟨_, _, rfl, by decide⟩

theorem readLetters_output_eq_ok_iff (hawaiting : reader.awaiting = none) {letters : Text} :
    reader.readLetters ('o' :: letters) = .ok reader' ↔
      ∃ wishes awaiting options, Letters ('o' :: letters) wishes awaiting ∧
        reader.options.Grants wishes options ∧ { reader with options, awaiting } = reader' := by
  constructor
  · intro h
    match letters with
    | [] => exact ⟨[], some .output, reader.options, .output, .nil, Except.ok.inj h⟩
    | c :: value =>
      by_cases hc : c = '='
      · subst hc
        rw [readLetters_outputIs, setValue_eq_ok_iff hawaiting] at h
        obtain ⟨wish, options, hvalue, hgrants, rfl⟩ := h
        exact ⟨[wish], none, options, .outputIs hvalue, hgrants, rfl⟩
      · rw [readLetters_outputOn hc, setValue_eq_ok_iff hawaiting] at h
        obtain ⟨wish, options, hvalue, hgrants, rfl⟩ := h
        exact ⟨[wish], none, options, .outputOn hvalue, hgrants, rfl⟩
  · rintro ⟨wishes, awaiting, options, hletters, hgrants, rfl⟩
    cases hletters with
    | output =>
      cases hgrants
      rfl
    | outputOn hvalue =>
      obtain ⟨c, rest, rfl, hc⟩ := head_ne_equals_of_valued hvalue
      rw [readLetters_outputOn hc, setValue_eq_ok_iff hawaiting]
      exact ⟨_, options, hvalue, hgrants, rfl⟩
    | outputIs hvalue =>
      rw [readLetters_outputIs, setValue_eq_ok_iff hawaiting]
      exact ⟨_, options, hvalue, hgrants, rfl⟩

theorem readLetters_eq_ok_iff (hawaiting : reader.awaiting = none) {letters : Text} :
    reader.readLetters letters = .ok reader' ↔
      ∃ wishes awaiting options, Letters letters wishes awaiting ∧
        reader.options.Grants wishes options ∧ { reader with options, awaiting } = reader' := by
  induction letters generalizing reader with
  | nil =>
    constructor
    · intro h
      refine ⟨[], none, reader.options, .done, .nil, ?_⟩
      rw [← hawaiting]
      exact Except.ok.inj h
    · rintro ⟨_, _, options, _ | _, _ | _, rfl⟩
      rw [← hawaiting]
      rfl
  | cons letter letters ih =>
    by_cases hv : letter = 'v'
    · subst hv
      have hrest := @ih { reader with options := reader.options.grant .verbose } hawaiting
      rw [readLetters_verbose, hrest]
      constructor
      · rintro ⟨wishes, awaiting, options, hletters, hgrants, rfl⟩
        exact ⟨_, _, _, .verbose hletters, .cons rfl hgrants, rfl⟩
      · rintro ⟨_, awaiting, options, hletters, hgrants, rfl⟩
        cases hletters with
        | verbose hletters =>
          cases hgrants with
          | cons _ hgrants => exact ⟨_, _, _, hletters, hgrants, rfl⟩
    by_cases ho : letter = 'o'
    · subst ho
      exact readLetters_output_eq_ok_iff hawaiting
    · constructor
      · intro h
        exact absurd h (readLetters_other hv ho letters)
      · rintro ⟨wishes, awaiting, options, hletters, -, -⟩
        cases hletters with
        | verbose => exact absurd rfl hv
        | output | outputOn | outputIs => exact absurd rfl ho

end ArgumentReader

end ShellWords
