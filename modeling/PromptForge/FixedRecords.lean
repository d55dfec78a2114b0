import Mathlib

/-!
# Records of one width, delimited records, and ranges of addresses

A file of records is cut into slots of one width; the last slot may be shorter. Numbers in a
record begin with their lowest byte. A delimited record is a name and a body, and a delimiter
ends each.
-/
namespace PromptForge.FixedRecords

section
variable {α : Type*}

def records (width : ℕ) (data : List α) : List (List α) :=
  (List.range (data.length / width)).map fun i => (data.drop (width * i)).take width

def remainder (width : ℕ) (data : List α) : List α := data.drop (width * (data.length / width))

def slots (width : ℕ) (data : List α) : List (List α) :=
  records width data ++ if remainder width data = [] then [] else [remainder width data]

lemma length_of_mem_records {width : ℕ} {data record : List α} (h : record ∈ records width data) : record.length = width := by
  obtain ⟨i, hi, rfl⟩ := List.mem_map.mp h
  have hi' : i + 1 ≤ data.length / width := List.mem_range.mp hi
  have hle : width * (i + 1) ≤ data.length := (Nat.mul_le_mul_left width hi').trans (Nat.mul_div_le _ _)
  rw [Nat.mul_succ] at hle
  rw [List.length_take, List.length_drop]
  omega

lemma length_remainder (width : ℕ) (data : List α) : (remainder width data).length = data.length % width := by
  rw [remainder, List.length_drop]
  have h := Nat.div_add_mod data.length width
  omega

lemma remainder_eq_nil_iff (width : ℕ) (data : List α) : remainder width data = [] ↔ data.length % width = 0 := by
  rw [← List.length_eq_zero_iff, length_remainder]

lemma mem_slots_iff {width : ℕ} {data slot : List α} :
    slot ∈ slots width data ↔ slot ∈ records width data ∨ (data.length % width ≠ 0 ∧ slot = remainder width data) := by
  simp only [slots, List.mem_append, remainder_eq_nil_iff]
  split
  · rename_i hzero
    simp [hzero]
  · rename_i hne
    simp [hne]

def little : List UInt8 → ℕ
  | [] => 0
  | byte :: bytes => byte.toNat + 256 * little bytes

def delimited (sep stop : α) (records : List (List α × List α)) : List α :=
  records.flatMap fun record => record.1 ++ sep :: (record.2 ++ stop :: [])

lemma delimited_inj {sep : α} {a a' b b' : List α} (ha : sep ∉ a) (ha' : sep ∉ a') (h : a ++ sep :: b = a' ++ sep :: b') :
    a = a' ∧ b = b' := by
  induction a generalizing a' with
  | nil =>
    cases a' with
    | nil => exact ⟨rfl, (List.cons.inj h).2⟩
    | cons x a' => exact absurd ((List.cons.inj h).1 ▸ List.mem_cons_self ..) ha'
  | cons x a ih =>
    cases a' with
    | nil => exact absurd ((List.cons.inj h).1 ▸ List.mem_cons_self ..) ha
    | cons y a' =>
      obtain ⟨rfl, hrest⟩ := List.cons.inj h
      obtain ⟨rfl, hb⟩ := ih (fun hmem => ha (List.mem_cons_of_mem _ hmem)) (fun hmem => ha' (List.mem_cons_of_mem _ hmem)) hrest
      exact ⟨rfl, hb⟩

lemma delimited_records_inj {sep stop : α} {xs ys : List (List α × List α)} (hxs : ∀ x ∈ xs, sep ∉ x.1 ∧ stop ∉ x.2)
    (hys : ∀ y ∈ ys, sep ∉ y.1 ∧ stop ∉ y.2) (h : delimited sep stop xs = delimited sep stop ys) : xs = ys := by
  induction xs generalizing ys with
  | nil =>
    cases ys with
    | nil => rfl
    | cons y ys => simp [delimited] at h
  | cons x xs ih =>
    cases ys with
    | nil => simp [delimited] at h
    | cons y ys =>
      obtain ⟨hx, hxs⟩ := List.forall_mem_cons.1 hxs
      obtain ⟨hy, hys⟩ := List.forall_mem_cons.1 hys
      simp only [delimited, List.flatMap_cons, List.append_assoc, List.cons_append, List.nil_append] at h
      obtain ⟨hname, hrest⟩ := delimited_inj hx.1 hy.1 h
      obtain ⟨hbody, htail⟩ := delimited_inj hx.2 hy.2 hrest
      rw [Prod.ext hname hbody, ih hxs hys htail]

end

/-- The addresses of `length` bytes from `start` on. -/
def range (start length : ℤ) : Set ℤ := Set.Ico start (start + length)

def meets (start length start' length' : ℤ) : Prop :=
  0 < length ∧ 0 < length' ∧ start < start' + length' ∧ start' < start + length

instance (start length start' length' : ℤ) : Decidable (meets start length start' length') :=
  inferInstanceAs (Decidable (_ ∧ _))

lemma disjoint_range_iff {start length start' length' : ℤ} :
    Disjoint (range start length) (range start' length') ↔ ¬ meets start length start' length' := by
  simp only [range, meets, Set.Ico_disjoint_Ico]
  omega

lemma range_subset {start length length' : ℤ} (h : length ≤ length') : range start length ⊆ range start length' :=
  Set.Ico_subset_Ico_right (by omega)

end PromptForge.FixedRecords
