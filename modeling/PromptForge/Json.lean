import Mathlib.Tactic
import PromptForge.Tables

/-!
# JSON objects

A decoded JSON text. An object is a list of entries without repeated keys, so
that reading and setting a key are the table operations.
-/
namespace PromptForge.Json
open Tables

inductive Value where
  | null
  | bool (b : Bool)
  | int (n : ℤ)
  | float (q : ℚ)
  | str (s : String)
  | arr (items : List Value)
  | obj (entries : List (String × Value))

abbrev Dict := List (String × Value)

def truthy : Value → Bool
  | .null => false
  | .bool b => b
  | .int n => n != 0
  | .float q => q != 0
  | .str s => s != ""
  | .arr items => !items.isEmpty
  | .obj entries => !entries.isEmpty

/-- `True == 1 == 1.0` -/
def number? : Value → Option ℚ
  | .bool b => some (if b then 1 else 0)
  | .int n => some n
  | .float q => some q
  | _ => none

def obj? : Value → Option Dict
  | .obj entries => some entries
  | _ => none

def str? : Value → Option String
  | .str s => some s
  | _ => none

namespace Dict

def get? (d : Dict) (k : String) : Option Value := (lookup Prod.fst d k).map Prod.snd

/-- An absent key reads as `None`. -/
def get (d : Dict) (k : String) : Value := (get? d k).getD .null

def set (k : String) (v : Value) (d : Dict) : Dict := replaceRow Prod.fst (k, v) d

def setDefault (k : String) (v : Value) (d : Dict) : Dict := if (get? d k).isSome then d else set k v d

def erase (k : String) (d : Dict) : Dict := deleteRow Prod.fst k d

/-- `set(d) == set(names)` -/
def HasKeys (d : Dict) (names : List String) : Prop :=
  (∀ entry ∈ d, entry.1 ∈ names) ∧ ∀ name ∈ names, (get? d name).isSome = true

instance (d : Dict) (names : List String) : Decidable (HasKeys d names) := inferInstanceAs (Decidable (_ ∧ _))

def getOr (d : Dict) (k : String) (default : Value) : Value :=
  if truthy (get d k) then get d k else default

@[simp] lemma get?_set (k : String) (v : Value) (d : Dict) (k' : String) :
    get? (set k v d) k' = if k' = k then some v else get? d k' := by
  unfold get? set
  rw [lookup_replaceRow]
  split <;> rfl

lemma get_of_get? {d : Dict} {k : String} {v : Value} (h : get? d k = some v) : get d k = v := by
  unfold get
  rw [h]
  rfl

lemma get_congr {d d' : Dict} {k : String} (h : get? d k = get? d' k) : get d k = get d' k := by
  unfold get
  rw [h]

lemma getOr_congr {d d' : Dict} {k : String} (h : get? d k = get? d' k) (default : Value) :
    getOr d k default = getOr d' k default := by
  unfold getOr
  rw [get_congr h]

lemma get?_setDefault_of_ne {k k' : String} (h : k' ≠ k) (v : Value) (d : Dict) :
    get? (setDefault k v d) k' = get? d k' := by
  unfold setDefault
  split
  · rfl
  · rw [get?_set, if_neg h]

lemma erase_set (k : String) (v : Value) (d : Dict) : erase k (set k v d) = erase k d := by
  unfold erase set replaceRow deleteRow
  rw [List.filter_append, List.filter_filter]
  simp

lemma get?_erase (k : String) (d : Dict) (k' : String) :
    get? (erase k d) k' = if k' = k then none else get? d k' := by
  unfold get? erase
  rw [lookup_deleteRow]
  split <;> rfl

lemma get?_eq_none {d : Dict} {k : String} : get? d k = none ↔ ∀ entry ∈ d, entry.1 ≠ k := by
  unfold get? lookup
  simp

lemma get?_of_mem {d : Dict} (hd : (d.map Prod.fst).Nodup) {e : String × Value} (he : e ∈ d) :
    get? d e.1 = some e.2 := by
  unfold get?
  rw [lookup_of_mem hd he]
  rfl

lemma mem_of_get? {d : Dict} {k : String} {v : Value} (h : get? d k = some v) : (k, v) ∈ d := by
  obtain ⟨e, he, rfl⟩ := Option.map_eq_some_iff.1 h
  obtain rfl := lookup_key he
  exact lookup_mem he

lemma length_erase {d : Dict} (hd : (d.map Prod.fst).Nodup) {k : String} {v : Value}
    (h : get? d k = some v) : (erase k d).length + 1 = d.length := by
  have hmem := mem_of_get? h
  induction d with
  | nil => cases h
  | cons e d ih =>
    obtain ⟨hnot, hd⟩ := List.nodup_cons.1 hd
    by_cases hk : e.1 = k
    · subst hk
      have hrest : d.filter (fun r => decide (r.1 ≠ e.1)) = d := by
        refine List.filter_eq_self.2 fun r hr => decide_eq_true fun he => hnot ?_
        rw [← he]
        exact List.mem_map_of_mem hr
      unfold erase deleteRow
      rw [List.filter_cons_of_neg (by simp), hrest]
      rfl
    · have hget : get? d k = some v := by
        rcases List.mem_cons.1 hmem with rfl | hmem
        · exact absurd rfl hk
        · exact get?_of_mem hd hmem
      unfold erase deleteRow
      rw [List.filter_cons_of_pos (by simpa using hk), List.length_cons, List.length_cons]
      exact congrArg (· + 1) (ih hd hget (mem_of_get? hget))

end Dict

mutual

/-- `==`: numbers by their value, objects whatever the order of their keys. -/
def same : Value → Value → Bool
  | .null, .null => true
  | .str s, .str t => decide (s = t)
  | .arr xs, .arr ys => sameItems xs ys
  | .obj xs, .obj ys => decide (xs.length = ys.length) && sameEntries xs ys
  | a, b =>
    match number? a, number? b with
    | some x, some y => decide (x = y)
    | _, _ => false

def sameItems : List Value → List Value → Bool
  | [], [] => true
  | x :: xs, y :: ys => same x y && sameItems xs ys
  | _, _ => false

def sameEntries : List (String × Value) → Dict → Bool
  | [], _ => true
  | (k, x) :: xs, ys =>
    (match ys.get? k with
      | some y => same x y
      | none => false) && sameEntries xs ys

end

lemma sameEntries_iff {xs : List (String × Value)} {ys : Dict} :
    sameEntries xs ys = true ↔ ∀ e ∈ xs, ∃ y, ys.get? e.1 = some y ∧ same e.2 y = true := by
  induction xs with
  | nil => exact ⟨fun _ _ h => absurd h List.not_mem_nil, fun _ => rfl⟩
  | cons e xs ih =>
    rw [List.forall_mem_cons, ← ih]
    change ((match ys.get? e.1 with
      | some y => same e.2 y
      | none => false) && sameEntries xs ys) = true ↔ _
    rw [Bool.and_eq_true]
    refine and_congr ?_ Iff.rfl
    cases ys.get? e.1 with
    | none => simp
    | some y => simp

lemma same_obj_iff {p q : Dict} :
    same (.obj p) (.obj q) = true ↔ p.length = q.length ∧
      ∀ e ∈ p, ∃ y, q.get? e.1 = some y ∧ same e.2 y = true := by
  change (decide (p.length = q.length) && sameEntries p q) = true ↔ _
  rw [Bool.and_eq_true, decide_eq_true_iff, sameEntries_iff]

lemma same_of_erase {k : String} {p q : Dict} {x y : Value} (hp : (p.map Prod.fst).Nodup)
    (hq : (q.map Prod.fst).Nodup) (hx : p.get? k = some x) (hy : q.get? k = some y) (hxy : same x y = true)
    (h : same (.obj (p.erase k)) (.obj (q.erase k)) = true) : same (.obj p) (.obj q) = true := by
  obtain ⟨hlen, hentries⟩ := same_obj_iff.1 h
  refine same_obj_iff.2 ⟨?_, fun e he => ?_⟩
  · rw [← Dict.length_erase hp hx, ← Dict.length_erase hq hy, hlen]
  · have hget := Dict.get?_of_mem hp he
    by_cases hk : e.1 = k
    · rw [hk, hx] at hget
      rw [hk, hy, ← Option.some.inj hget]
      exact ⟨y, rfl, hxy⟩
    · obtain ⟨z, hz, hsame⟩ := hentries e (List.mem_filter.2 ⟨he, decide_eq_true hk⟩)
      rw [Dict.get?_erase, if_neg hk] at hz
      exact ⟨z, hz, hsame⟩

lemma same_getD {p q : Dict} (hpq : same (.obj p) (.obj q) = true)
    (hqp : same (.obj q) (.obj p) = true) (k : String) {v : Value} (hv : same v v = true) :
    same ((p.get? k).getD v) ((q.get? k).getD v) = true := by
  rcases hx : p.get? k with _ | x
  · rcases hy : q.get? k with _ | y
    · exact hv
    · obtain ⟨x, hget, -⟩ := (same_obj_iff.1 hqp).2 _ (Dict.mem_of_get? hy)
      rw [hx] at hget
      cases hget
  · obtain ⟨y, hy, hsame⟩ := (same_obj_iff.1 hpq).2 _ (Dict.mem_of_get? hx)
    rw [hy]
    exact hsame

end PromptForge.Json
