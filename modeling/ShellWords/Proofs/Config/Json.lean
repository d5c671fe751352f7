import ShellWords.Proofs.Config.Overlay
import ShellWords.Proofs.Json

/-! Documents as JSON objects. An object may be written with blanks around each of its tokens and
with its strings spelled in any way, and is read as the members that it states. The compact form is
one of the ways to write it. -/

namespace ShellWords.Json

open Reader

/-! ### Written objects -/

/-- A text of blanks. -/
def Blank (text : Text) : Prop :=
  ∀ c ∈ text, c = ' ' ∨ c = '\t' ∨ c = '\n' ∨ c = '\r'

/-- A name and a value, with a colon between them and blanks around each. -/
inductive WritesMember : Text × DocumentValue → Text → Prop where
  | intro {name key written : Text} {value : DocumentValue} {before first second after : Text}
    (hbefore : Blank before) (hkey : Text.Spelled Spells name key) (hfirst : Blank first)
    (hsecond : Blank second) (hvalue : value.Written Spells written) (hafter : Blank after) :
    WritesMember (name, value)
      (before ++ '"' :: (key ++ '"' :: (first ++ ':' :: (second ++ (written ++ after)))))

/-- Members with a comma between each two. -/
inductive WritesMembers : Document → Text → Prop where
  | single {entry : Text × DocumentValue} {text : Text} (h : WritesMember entry text) :
    WritesMembers [entry] text
  | cons {entry : Text × DocumentValue} {document : Document} {text others : Text}
    (h : WritesMember entry text) (hothers : WritesMembers document others) :
    WritesMembers (entry :: document) (text ++ ',' :: others)

inductive WritesObject : Document → Text → Prop where
  | empty {before inside after : Text} (hbefore : Blank before) (hinside : Blank inside)
    (hafter : Blank after) : WritesObject [] (before ++ '\x7b' :: (inside ++ '\x7d' :: after))
  | members {document : Document} {before text after : Text} (hbefore : Blank before)
    (h : WritesMembers document text) (hafter : Blank after) :
    WritesObject document (before ++ '\x7b' :: (text ++ '\x7d' :: after))

/-- The member that states an entry. -/
def memberOf (entry : Text × DocumentValue) : Option Text × Json :=
  (some entry.1, entry.2.toJson)

/-! ### Reading them -/

theorem blank_nil : Blank [] :=
  nofun

theorem Blank.dropWhile_append {blank : Text} (h : Blank blank) (rest : Text) :
    (blank ++ rest).dropWhile isBlank = rest.dropWhile isBlank :=
  List.dropWhile_append_of_pos fun c hc => by simpa [isBlank, or_assoc] using h c hc

theorem Blank.blanks_append {blank : Text} (h : Blank blank) (rest : Text) :
    blanks (blank ++ rest) = blanks rest := by
  rw [blanks_eq, blanks_eq, h.dropWhile_append]

/-- The blanks before a value do not count. -/
theorem Blank.value_append {blank : Text} (h : Blank blank) (depth : Nat) (text : Text) :
    value depth (blank ++ text) = value depth text := by
  cases depth with
  | zero => rfl
  | succ depth =>
    rw [value, bind_of_some ((h.blanks_append text).trans (blanks_eq text)),
      bind_of_some (blanks_eq text)]

theorem value_written {stated : DocumentValue} {written : Text} (h : stated.Written Spells written)
    (depth : Nat) (rest : Text) :
    value (depth + 1) (written ++ rest) = some (stated.toJson, rest.dropWhile isBlank) := by
  cases h with
  | @text chars spelled hspelled =>
    have hstring : value (depth + 1) ('"' :: (spelled ++ '"' :: rest)) =
        some ((DocumentValue.text chars).toJson, rest.dropWhile isBlank) :=
      value_spelled hspelled depth rest
    simpa only [List.cons_append, List.append_assoc, List.nil_append] using hstring
  | enabled =>
    have htrue := literal_append "true".toList rest
    rw [value, bind_of_some (blanks_eq _)]
    refine (bind_of_some ?_ _).trans (bind_of_some (blanks_eq rest) _)
    rw [orElse_of_none (seqRight_of_none rfl _)]
    exact orElse_of_some (seqRight_of_some htrue _)
  | disabled =>
    have hfalse := literal_append "false".toList rest
    rw [value, bind_of_some (blanks_eq _)]
    refine (bind_of_some ?_ _).trans (bind_of_some (blanks_eq rest) _)
    rw [orElse_of_none (seqRight_of_none rfl _), orElse_of_none (seqRight_of_none rfl _)]
    exact orElse_of_some (seqRight_of_some hfalse _)

theorem member_written {entry : Text × DocumentValue} {text : Text} (h : WritesMember entry text)
    (depth : Nat) (rest : Text) :
    value.member (value (depth + 1)) (text ++ rest) =
      some (memberOf entry, rest.dropWhile isBlank) := by
  cases h with
  | @intro name key written stated before first second after hbefore hkey hfirst hsecond hvalue
      hafter =>
    have hstart : blanks (before ++ '"' :: (key ++ '"' :: (first ++ ':' ::
        (second ++ (written ++ after)))) ++ rest) = some ((), '"' :: (key ++ '"' :: (first ++ ':' ::
        (second ++ (written ++ (after ++ rest)))))) := by
      simp only [List.append_assoc, List.cons_append]
      exact (hbefore.blanks_append _).trans (blanks_eq _)
    have hcolon : blanks (first ++ ':' :: (second ++ (written ++ (after ++ rest)))) =
        some ((), ':' :: (second ++ (written ++ (after ++ rest)))) :=
      (hfirst.blanks_append _).trans (blanks_eq _)
    have hread : value (depth + 1) (second ++ (written ++ (after ++ rest))) =
        some (stated.toJson, rest.dropWhile isBlank) := by
      rw [hsecond.value_append, value_written hvalue, hafter.dropWhile_append]
    rw [value.member, bind_of_some hstart, bind_of_some (stringText_spelled hkey _),
      bind_of_some hcolon, bind_of_some (char_self _ _), bind_of_some hread]
    rfl

theorem members_written {document : Document} {text : Text} (h : WritesMembers document text)
    (depth : Nat) (rest : Text) :
    ∃ first others middle, document.map memberOf = first :: others ∧
      value.member (value (depth + 1)) (text ++ '\x7d' :: rest) = some (first, middle) ∧
      middle.length ≤ (text ++ '\x7d' :: rest).length ∧
      Takes (char ',' *> value.member (value (depth + 1))) middle others ('\x7d' :: rest) := by
  induction h with
  | single hmember =>
    refine ⟨_, [], '\x7d' :: rest, rfl, member_written hmember depth _, ?_, .stop rfl⟩
    rw [List.length_append]
    exact Nat.le_add_left _ _
  | @cons entry document text others hmember _ ih =>
    obtain ⟨first, more, middle, hmap, hfirst, hlength, htakes⟩ := ih
    refine ⟨memberOf entry, document.map memberOf, ',' :: (others ++ '\x7d' :: rest), rfl, ?_, ?_,
      ?_⟩
    · rw [List.append_assoc]
      exact member_written hmember depth _
    · simp only [List.length_append, List.length_cons]
      omega
    · rw [hmap]
      refine .next ((seqRight_of_some (char_self _ _) _).trans hfirst) ?_ htakes
      exact Nat.lt_succ_of_le hlength

theorem sepBy_written {document : Document} {text : Text} (h : WritesMembers document text)
    (depth : Nat) (rest : Text) :
    sepBy (value.member (value (depth + 1))) (char ',') (text ++ '\x7d' :: rest) =
      some (document.map memberOf, '\x7d' :: rest) := by
  obtain ⟨first, others, middle, hmap, hfirst, -, hothers⟩ := members_written h depth rest
  rw [hmap]
  exact sepBy_of_takes hfirst hothers

/-- The members between the brackets of an object make a value. -/
theorem value_object {members : List (Option Text × Json)} {depth : Nat}
    {before inside middle after : Text} (hbefore : Blank before) (hafter : Blank after)
    (h : sepBy (value.member (value depth)) (char ',') (inside ++ '\x7d' :: after) =
      some (members, middle)) (hmiddle : blanks middle = some ((), '\x7d' :: after)) :
    value (depth + 1) (before ++ '\x7b' :: (inside ++ '\x7d' :: after)) =
      some (.object members, []) := by
  have hend : blanks after = some ((), []) := by
    have happend := hafter.blanks_append []
    rw [List.append_nil] at happend
    rw [happend]
    rfl
  have hbrackets : (char '\x7b' *> sepBy (value.member (value depth)) (char ',') <* blanks <*
      char '\x7d') ('\x7b' :: (inside ++ '\x7d' :: after)) = some (members, after) :=
    seqLeft_of_some (seqLeft_of_some ((seqRight_of_some (char_self _ _) _).trans h) hmiddle)
      (char_self _ _)
  rw [hbefore.value_append, value, bind_of_some (blanks_eq _)]
  refine (bind_of_some ?_ _).trans (bind_of_some hend _)
  -- none of the six kinds of values that are tried before starts with a brace
  rw [orElse_of_none (seqRight_of_none rfl _), orElse_of_none (seqRight_of_none rfl _),
    orElse_of_none (seqRight_of_none rfl _), orElse_of_none rfl, orElse_of_none rfl,
    orElse_of_none rfl]
  exact map_of_some hbrackets _

/-- A document that is written as an object is read as the members that state it. -/
theorem parse?_object {document : Document} {text : Text} (h : WritesObject document text) :
    parse? text = some (.object (document.map memberOf)) := by
  obtain ⟨depth, hdepth⟩ : ∃ depth, text.length + 1 = depth + 2 := by
    refine ⟨text.length - 1, ?_⟩
    have hlength : 0 < text.length := by
      cases h with
      | empty | members => simp only [List.length_append, List.length_cons]; omega
    omega
  have hread : value (depth + 2) text = some (.object (document.map memberOf), []) := by
    cases h with
    | @empty before inside after hbefore hinside hafter =>
      have hmember : value.member (value (depth + 1)) (inside ++ '\x7d' :: after) = none := by
        have hblanks : blanks (inside ++ '\x7d' :: after) = some ((), '\x7d' :: after) :=
          (hinside.blanks_append _).trans (blanks_eq _)
        rw [value.member, bind_of_some hblanks]
        rfl
      exact value_object hbefore hafter (sepBy_of_none hmember)
        ((hinside.blanks_append _).trans (blanks_eq _))
    | members hbefore hmembers hafter =>
      exact value_object hbefore hafter (sepBy_written hmembers depth _) (blanks_eq _)
  simp only [parse?, readAll?, hdepth, hread]

/-! ### The compact form -/

theorem written_print {stated : DocumentValue} (h : stated ≠ .other) :
    stated.Written Spells stated.toJson.print := by
  cases stated with
  | text chars => exact .text (.flatMap spells_printChar chars)
  | flag enabled =>
    cases enabled with
    | true => exact .enabled
    | false => exact .disabled
  | other => exact absurd rfl h

theorem writesMember_print {entry : Text × DocumentValue} (h : entry.2 ≠ .other) :
    WritesMember entry (printString (some entry.1) ++ ':' :: entry.2.toJson.print) := by
  have hkey : Text.Spelled Spells entry.1 _ := .flatMap spells_printChar entry.1
  have hmember := WritesMember.intro blank_nil hkey blank_nil blank_nil (written_print h)
    blank_nil
  rw [printString_append]
  simpa only [List.nil_append, List.append_nil] using hmember

theorem writesMembers_print {entry : Text × DocumentValue} {document : Document}
    (h : ∀ stated ∈ entry :: document, stated.2 ≠ .other) :
    ∃ text, WritesMembers (entry :: document) text ∧
      printString (some entry.1) ++ ':' :: entry.2.toJson.print ++
        printMembers (document.map memberOf) = text ++ ['\x7d'] := by
  induction document generalizing entry with
  | nil => exact ⟨_, .single (writesMember_print (h entry List.mem_cons_self)), rfl⟩
  | cons other document ih =>
    obtain ⟨hentry, hdocument⟩ := List.forall_mem_cons.1 h
    obtain ⟨text, htext, heq⟩ := ih hdocument
    refine ⟨_, .cons (writesMember_print hentry) htext, ?_⟩
    rw [List.append_assoc _ (',' :: text), List.cons_append, ← heq]
    simp only [List.map_cons, memberOf, printMembers, List.cons_append, List.append_assoc]

/-- The compact form is a way to write an object. -/
theorem writesObject_print {document : Document} (h : ∀ entry ∈ document, entry.2 ≠ .other) :
    WritesObject document (object (document.map memberOf)).print := by
  cases document with
  | nil => exact .empty blank_nil blank_nil blank_nil
  | cons entry document =>
    obtain ⟨text, htext, heq⟩ := writesMembers_print h
    have hprint : (object ((entry :: document).map memberOf)).print =
        [] ++ '\x7b' :: (text ++ '\x7d' :: []) := by
      rw [← heq]
      simp only [List.map_cons, memberOf, print, List.cons_append, List.nil_append]
    rw [hprint]
    exact .members blank_nil htext blank_nil

end ShellWords.Json
