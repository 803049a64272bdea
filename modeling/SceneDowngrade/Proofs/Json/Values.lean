import SceneDowngrade.Json.Value
import SceneDowngrade.Proofs.Json.Skipping

/-!
# Values of a wanted type

Where a string or a boolean is wanted, the reader takes one from its text and refuses every other
value, null included.
-/
namespace SceneDowngrade.Json

def Value.string? : Value → Option Text
  | .string s => some s
  | _ => none

def Value.boolean? : Value → Option Bool
  | .boolean b => some b
  | _ => none

/-- The reader takes what `wanted?` finds in a value, and fails where that is nothing. -/
structure Reads {α : Type} (read : Text → Except Error (α × Text)) (wanted? : Value → Option α) :
    Prop where
  space {space : Text} (text : Text) : Space space → read (space ++ text) = read text
  value {value : Value} {text : Text} (rest : Text) : Spells (.value value) text →
    (read (text ++ rest)).toOption = (wanted? value).map fun a => (a, rest)

theorem readText_other {c : Char} (hspace : isSpace c = false) (hc : c ≠ '"') (rest : Text) :
    (readText (c :: rest)).toOption = none := by
  rw [readText, skipSpace_cons hspace]
  split
  · simp_all
  · rfl

theorem readFlag_other {c : Char} (hspace : isSpace c = false) (ht : c ≠ 't') (hf : c ≠ 'f')
    (rest : Text) : (readFlag (c :: rest)).toOption = none := by
  rw [readFlag, skipSpace_cons hspace]
  split
  · simp_all
  · simp_all
  · rfl

theorem readText_value {value : Value} {text : Text} (h : Spells (.value value) text)
    (rest : Text) :
    (readText (text ++ rest)).toOption = value.string?.map fun s => (s, rest) := by
  cases h with
  | string hstring =>
    have hread := readString_of_stringText hstring rest
    simp [readText, skipSpace, isSpace, hread, Value.string?, Except.toOption]
  | number hnumber =>
    obtain ⟨c, digits, rfl, hc, -⟩ := hnumber.cases
    refine readText_other (opens_number hc).1 ?_ _
    rintro rfl
    exact absurd hc (by decide)
  | null | true | false | emptyList | list | emptyObject | object =>
    exact readText_other (by decide) (by decide) _

theorem readFlag_value {value : Value} {text : Text} (h : Spells (.value value) text)
    (rest : Text) :
    (readFlag (text ++ rest)).toOption = value.boolean?.map fun b => (b, rest) := by
  cases h with
  | true =>
    have hread : readFlag ("true".toList ++ rest) =
        (readWord "rue".toList ("rue".toList ++ rest)).map fun rest => (true, rest) := rfl
    rw [hread, readWord_append]
    rfl
  | false =>
    have hread : readFlag ("false".toList ++ rest) =
        (readWord "alse".toList ("alse".toList ++ rest)).map fun rest => (false, rest) := rfl
    rw [hread, readWord_append]
    rfl
  | number hnumber =>
    obtain ⟨c, digits, rfl, hc, -⟩ := hnumber.cases
    refine readFlag_other (opens_number hc).1 ?_ ?_ _
    · rintro rfl
      exact absurd hc (by decide)
    · rintro rfl
      exact absurd hc (by decide)
  | null | string | emptyList | list | emptyObject | object =>
    exact readFlag_other (by decide) (by decide) (by decide) _

theorem reads_readText : Reads readText Value.string? where
  space text h := by rw [readText, skipSpace_append h, ← readText]
  value rest h := readText_value h rest

theorem reads_readFlag : Reads readFlag Value.boolean? where
  space text h := by rw [readFlag, skipSpace_append h, ← readFlag]
  value rest h := readFlag_value h rest

/-- The white space behind the value is left to what comes next. -/
theorem Reads.element {α : Type} {read : Text → Except Error (α × Text)}
    {wanted? : Value → Option α} (hread : Reads read wanted?) {value : Value} {text : Text}
    (h : Spells (.element value) text) (rest : Text) :
    ∃ after, Space after ∧
      (read (text ++ rest)).toOption = (wanted? value).map fun a => (a, after ++ rest) := by
  cases h with
  | element hbefore hvalue hafter =>
    refine ⟨_, hafter, ?_⟩
    rw [List.append_assoc, List.append_assoc, hread.space _ hbefore, hread.value _ hvalue]

end SceneDowngrade.Json
