import PromptForge.Tables

/-!
# Entries in the order of their insertion

A dictionary that keeps the order in which its keys came. An entry that is assigned again keeps
its place.
-/
namespace PromptForge.OrderedEntries
open Tables

universe u v
variable {κ : Type u} {ν : Type v} [DecidableEq κ]

abbrev Entries (κ : Type u) (ν : Type v) := List (κ × ν)

namespace Entries

def get? (entries : Entries κ ν) (key : κ) : Option ν := (lookup Prod.fst entries key).map Prod.snd

def put (entries : Entries κ ν) (key : κ) (value : ν) : Entries κ ν :=
  if (entries.get? key).isSome = true then updateRow Prod.fst (key, value) entries else entries ++ [(key, value)]

def pop (entries : Entries κ ν) (key : κ) : Entries κ ν := deleteRow Prod.fst key entries

def last (count : ℕ) (entries : Entries κ ν) : Entries κ ν := entries.drop (entries.length - count)

variable {entries : Entries κ ν} {key name : κ} {value : ν}

lemma get?_put (entries : Entries κ ν) (key : κ) (value : ν) (name : κ) :
    (entries.put key value).get? name = if name = key then some value else entries.get? name := by
  have hupdate : ∀ entries : Entries κ ν, get? (updateRow Prod.fst (key, value) entries) name =
      if name = key then (entries.get? key).map fun _ => value else entries.get? name := by
    intro entries
    induction entries with
    | nil => simp [get?, updateRow]
    | cons entry entries ih =>
      simp only [get?, updateRow, List.map_cons, lookup_cons] at ih ⊢
      by_cases hentry : entry.1 = key <;> by_cases hname : name = key <;> by_cases hsame : entry.1 = name <;> simp_all
  unfold put
  by_cases hsome : (entries.get? key).isSome = true
  · obtain ⟨old, hold⟩ := Option.isSome_iff_exists.mp hsome
    rw [if_pos hsome, hupdate, hold]
    rfl
  · rw [if_neg hsome]
    have hnone : lookup Prod.fst entries key = none := by simpa [get?] using hsome
    unfold get?
    rw [lookup_append, lookup_cons]
    by_cases hname : name = key
    · simp [hname, hnone]
    · simp [hname, Ne.symm hname]

lemma get?_pop (entries : Entries κ ν) (key name : κ) :
    (entries.pop key).get? name = if name = key then none else entries.get? name := by
  unfold get? pop
  rw [lookup_deleteRow]
  split <;> rfl

lemma mem_of_get? (h : entries.get? key = some value) : (key, value) ∈ entries := by
  obtain ⟨entry, hentry, rfl⟩ := Option.map_eq_some_iff.mp h
  obtain rfl := lookup_key hentry
  exact lookup_mem hentry

lemma mem_put {entry : κ × ν} (h : entry ∈ entries.put key value) : entry = (key, value) ∨ entry ∈ entries := by
  unfold put updateRow at h
  split at h
  · obtain ⟨old, hold, rfl⟩ := List.mem_map.mp h
    split
    · exact .inl rfl
    · exact .inr hold
  · rcases List.mem_append.mp h with h | h
    · exact .inr h
    · exact .inl (List.mem_singleton.mp h)

lemma mem_pop {entry : κ × ν} (h : entry ∈ entries.pop key) : entry ∈ entries := List.mem_of_mem_filter h

omit [DecidableEq κ] in
lemma mem_last {count : ℕ} {entry : κ × ν} (h : entry ∈ entries.last count) : entry ∈ entries := List.mem_of_mem_drop h

lemma get?_last_of_none {count : ℕ} (h : entries.get? key = none) : (entries.last count).get? key = none := by
  have hnot : ∀ entry ∈ entries, entry.1 ≠ key := lookup_eq_none.mp (by simpa [get?] using h)
  have hlast : lookup Prod.fst (entries.last count) key = none := lookup_eq_none.mpr fun entry hentry => hnot entry (mem_last hentry)
  simp [get?, hlast]

end Entries

end PromptForge.OrderedEntries
