import PromptForge.Json

/-!
# JSON schemas

The keywords for texts, choices, arrays and objects without other properties.
-/
namespace PromptForge.JsonSchema
open Json Tables

inductive Schema where
  | text (minLength maxLength : ℕ) (pattern : String → Bool)
  /-- `enum`, of texts -/
  | choice (texts : List String)
  | array (minItems maxItems : ℕ) (uniqueItems : Bool) (items : Schema)
  /-- `additionalProperties` is `false`. -/
  | object (properties : List (String × Schema)) (required : List String)

def anyText (_ : String) : Bool := true

mutual

def accepts : Schema → Value → Bool
  | .text minLength maxLength pattern, .str text =>
    decide (minLength ≤ text.length) && decide (text.length ≤ maxLength) && pattern text
  | .choice texts, .str text => decide (text ∈ texts)
  | .array minItems maxItems uniqueItems items, .arr values =>
    decide (minItems ≤ values.length) && decide (values.length ≤ maxItems) &&
      (!uniqueItems || decide (values.Pairwise fun v w => same v w = false)) && values.all (accepts items)
  | .object properties required, .obj fields =>
    (fields.all fun entry => acceptsField properties entry.1 entry.2) && required.all fun name => (Dict.get? fields name).isSome
  | _, _ => false

def acceptsField : List (String × Schema) → String → Value → Bool
  | [], _, _ => false
  | (name, schema) :: properties, field, value => if name = field then accepts schema value else acceptsField properties field value

end

variable {value : Value}

lemma text_of_accepts {minLength maxLength : ℕ} {pattern : String → Bool} (h : accepts (.text minLength maxLength pattern) value = true) :
    ∃ text, value = .str text ∧ minLength ≤ text.length ∧ text.length ≤ maxLength ∧ pattern text = true := by
  cases value with
  | str text =>
    simp only [accepts, Bool.and_eq_true, decide_eq_true_eq] at h
    exact ⟨text, rfl, h.1.1, h.1.2, h.2⟩
  | _ => simp [accepts] at h

lemma items_of_accepts {minItems maxItems : ℕ} {uniqueItems : Bool} {items : Schema}
    (h : accepts (.array minItems maxItems uniqueItems items) value = true) :
    ∃ values, value = .arr values ∧ minItems ≤ values.length ∧ values.length ≤ maxItems ∧ ∀ v ∈ values, accepts items v = true := by
  cases value with
  | arr values =>
    simp only [accepts, Bool.and_eq_true, decide_eq_true_eq, List.all_eq_true] at h
    exact ⟨values, rfl, h.1.1.1, h.1.1.2, h.2⟩
  | _ => simp [accepts] at h

lemma fields_of_accepts {properties : List (String × Schema)} {required : List String} (h : accepts (.object properties required) value = true) :
    ∃ fields : Dict, value = .obj fields ∧ (∀ entry ∈ fields, acceptsField properties entry.1 entry.2 = true) ∧
      ∀ name ∈ required, (fields.get? name).isSome = true := by
  cases value with
  | obj fields =>
    simp only [accepts, Bool.and_eq_true, List.all_eq_true] at h
    exact ⟨fields, rfl, h⟩
  | _ => simp [accepts] at h

lemma accepts_of_acceptsField {properties : List (String × Schema)} {field : String} (h : acceptsField properties field value = true) :
    ∃ property, lookup Prod.fst properties field = some property ∧ accepts property.2 value = true := by
  induction properties with
  | nil => simp [acceptsField] at h
  | cons property properties ih =>
    unfold acceptsField at h
    by_cases hname : property.1 = field
    · rw [if_pos hname] at h
      exact ⟨property, by simp [lookup, hname], h⟩
    · rw [if_neg hname] at h
      obtain ⟨found, hfound, haccepts⟩ := ih h
      exact ⟨found, by simpa [lookup, hname] using hfound, haccepts⟩

lemma name_of_acceptsField {properties : List (String × Schema)} {field : String} (h : acceptsField properties field value = true) :
    field ∈ properties.map Prod.fst := by
  obtain ⟨property, hfound, -⟩ := accepts_of_acceptsField h
  exact lookup_key hfound ▸ List.mem_map_of_mem (lookup_mem hfound)

end PromptForge.JsonSchema
