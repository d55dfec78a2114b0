import Mathlib.Algebra.GroupWithZero.Nat
import Mathlib.Data.List.Basic
import Mathlib.Data.List.Nodup
import Mathlib.Data.List.Pairwise

/-!
# Tables of rows with a key

A table is the list of its rows in insertion order.
-/
namespace PromptForge.Tables

universe u v
variable {ρ : Type u} {κ : Type v} [DecidableEq κ] (key : ρ → κ)

def lookup (t : List ρ) (k : κ) : Option ρ := t.find? fun r => decide (key r = k)

def updateWhere (p : ρ → Bool) (f : ρ → ρ) (t : List ρ) : List ρ :=
  t.map fun r => if p r then f r else r

def deleteRow (k : κ) (t : List ρ) : List ρ := t.filter fun r => decide (key r ≠ k)

/-- `INSERT OR REPLACE` -/
def replaceRow (r : ρ) (t : List ρ) : List ρ := deleteRow key (key r) t ++ [r]

/-- `UPDATE … SET … WHERE key=?` of a whole row -/
def updateRow (r : ρ) (t : List ρ) : List ρ := t.map fun x => if key x = key r then r else x

/-- A row whose key is taken breaks the uniqueness constraint and is refused. -/
def insertRow (r : ρ) (t : List ρ) : Option (List ρ) :=
  if (lookup key t (key r)).isSome then none else some (t ++ [r])

variable {key}

lemma lookup_key {t : List ρ} {k : κ} {r : ρ} (h : lookup key t k = some r) : key r = k := by
  simpa using List.find?_some h

lemma lookup_mem {t : List ρ} {k : κ} {r : ρ} (h : lookup key t k = some r) : r ∈ t :=
  List.mem_of_find?_eq_some h

lemma lookup_eq_none {t : List ρ} {k : κ} : lookup key t k = none ↔ ∀ r ∈ t, key r ≠ k := by
  simp [lookup, List.find?_eq_none]

@[simp] lemma lookup_nil (k : κ) : lookup key [] k = none := rfl

lemma lookup_cons (r : ρ) (t : List ρ) (k : κ) :
    lookup key (r :: t) k = if key r = k then some r else lookup key t k := by
  unfold lookup
  rw [List.find?_cons]
  by_cases h : key r = k <;> simp [h]

lemma lookup_append (t u : List ρ) (k : κ) :
    lookup key (t ++ u) k = (lookup key t k).or (lookup key u k) := by
  simp [lookup, List.find?_append]

omit [DecidableEq κ] in
lemma nodup_map_cons {r : ρ} {t : List ρ} (h : ((r :: t).map key).Nodup) : (∀ x ∈ t, key x ≠ key r) ∧ (t.map key).Nodup := by
  rw [List.map_cons, List.nodup_cons] at h
  exact ⟨fun x hx hsame => h.1 (hsame ▸ List.mem_map_of_mem hx), h.2⟩

omit [DecidableEq κ] in
lemma apart_of_split {before after : List ρ} {r : ρ} (h : ((before ++ r :: after).map key).Nodup) :
    (∀ x ∈ before, key x ≠ key r) ∧ ∀ x ∈ after, key x ≠ key r := by
  rw [List.map_append, List.nodup_append] at h
  obtain ⟨-, hafter, hdisjoint⟩ := h
  exact ⟨fun x hx => hdisjoint _ (List.mem_map_of_mem hx) _ (List.mem_cons_self ..), (nodup_map_cons hafter).1⟩

omit [DecidableEq κ] in
lemma nodup_map_concat {r : ρ} {t : List ρ} (hn : (t.map key).Nodup) (h : ∀ x ∈ t, key x ≠ key r) : ((t ++ [r]).map key).Nodup := by
  rw [List.map_append, List.nodup_append]
  refine ⟨hn, List.nodup_singleton _, fun a ha b hb => ?_⟩
  obtain ⟨x, hx, rfl⟩ := List.mem_map.1 ha
  rw [List.mem_singleton.1 hb]
  exact h x hx

lemma lookup_of_mem {t : List ρ} (hn : (t.map key).Nodup) {r : ρ} (h : r ∈ t) :
    lookup key t (key r) = some r := by
  induction t with
  | nil => cases h
  | cons x t ih =>
    obtain ⟨hothers, hn⟩ := nodup_map_cons hn
    rw [lookup_cons]
    rcases List.mem_cons.1 h with rfl | h
    · rw [if_pos rfl]
    · rw [if_neg (hothers r h).symm]
      exact ih hn h

lemma lookup_updateWhere {p : ρ → Bool} {f : ρ → ρ} (hf : ∀ r, key (f r) = key r)
    (t : List ρ) (k : κ) :
    lookup key (updateWhere p f t) k = (lookup key t k).map fun r => if p r then f r else r := by
  have hkey (r : ρ) : key (if p r then f r else r) = key r := by
    split
    · exact hf r
    · rfl
  induction t with
  | nil => rfl
  | cons r t ih =>
    change lookup key ((if p r then f r else r) :: updateWhere p f t) k = _
    rw [lookup_cons, lookup_cons, hkey]
    by_cases h : key r = k
    · simp [h]
    · simp only [h, if_false]
      exact ih

omit [DecidableEq κ] in
lemma map_key_updateWhere {p : ρ → Bool} {f : ρ → ρ} (hf : ∀ r, key (f r) = key r)
    (t : List ρ) : (updateWhere p f t).map key = t.map key := by
  unfold updateWhere
  rw [List.map_map]
  refine List.map_congr_left fun r _ => ?_
  change key (if p r then f r else r) = key r
  split
  · exact hf r
  · rfl

omit [DecidableEq κ] in
lemma nodup_updateWhere {p : ρ → Bool} {f : ρ → ρ} (hf : ∀ r, key (f r) = key r) {t : List ρ}
    (hn : (t.map key).Nodup) : ((updateWhere p f t).map key).Nodup := by
  rwa [map_key_updateWhere hf]

lemma mem_updateWhere {p : ρ → Bool} {f : ρ → ρ} {t : List ρ} {x : ρ} :
    x ∈ updateWhere p f t ↔ ∃ r ∈ t, (if p r then f r else r) = x := by
  simp [updateWhere]

omit [DecidableEq κ] in
lemma filter_updateWhere {μ : Type*} {p q : ρ → Bool} {f : ρ → ρ} {g : ρ → μ}
    (hq : ∀ r, q (f r) = q r) (hg : ∀ r, g (f r) = g r) (t : List ρ) :
    ((updateWhere p f t).filter q).map g = (t.filter q).map g := by
  have hrow (r : ρ) : q (if p r then f r else r) = q r ∧ g (if p r then f r else r) = g r := by
    split
    · exact ⟨hq r, hg r⟩
    · exact ⟨rfl, rfl⟩
  unfold updateWhere
  induction t with
  | nil => rfl
  | cons r t ih =>
    rw [List.map_cons, List.filter_cons, List.filter_cons, (hrow r).1]
    split
    · rw [List.map_cons, List.map_cons, ih, (hrow r).2]
    · exact ih

lemma sum_updateWhere {t : List ρ} (hn : (t.map key).Nodup) {k : κ} {r : ρ}
    (h : lookup key t k = some r) {q : ρ → Bool} {f : ρ → ρ} (hq : q (f r) = q r) (g : ρ → ℕ) :
    (((updateWhere (fun r => decide (key r = k)) f t).filter q).map g).sum + (if q r then g r else 0) =
      ((t.filter q).map g).sum + (if q r then g (f r) else 0) := by
  induction t with
  | nil => cases h
  | cons x t ih =>
    obtain ⟨hothers, hn⟩ := nodup_map_cons hn
    rw [lookup_cons] at h
    unfold updateWhere at ih ⊢
    rw [List.map_cons]
    by_cases hx : key x = k
    · rw [if_pos hx] at h
      have hr := Option.some.inj h
      subst hr
      have hrest : t.map (fun r => if decide (key r = k) = true then f r else r) = t := by
        refine (List.map_congr_left fun r hr => ?_).trans (List.map_id t)
        have : key r ≠ k := hx ▸ hothers r hr
        simp [this]
      rw [hrest, if_pos (by simpa using hx), List.filter_cons, List.filter_cons, hq]
      by_cases hqx : q x = true
      · rw [if_pos hqx, if_pos hqx, if_pos hqx, if_pos hqx, List.map_cons, List.map_cons, List.sum_cons,
          List.sum_cons]
        omega
      · rw [if_neg hqx, if_neg hqx, if_neg hqx, if_neg hqx]
    · rw [if_neg hx] at h
      have hrest := ih hn h
      rw [if_neg (by simpa using hx), List.filter_cons, List.filter_cons]
      by_cases hqx : q x = true
      · rw [if_pos hqx, if_pos hqx, List.map_cons, List.map_cons, List.sum_cons, List.sum_cons]
        omega
      · rw [if_neg hqx, if_neg hqx]
        exact hrest

lemma countP_updateWhere {t : List ρ} (hn : (t.map key).Nodup) {k : κ} {r : ρ}
    (h : lookup key t k = some r) (q : ρ → Bool) (f : ρ → ρ) :
    (updateWhere (fun r => decide (key r = k)) f t).countP q + (if q r then 1 else 0) =
      t.countP q + (if q (f r) then 1 else 0) := by
  have hcount : ∀ u : List ρ, u.countP q = ((u.filter fun _ => true).map fun r => if q r then 1 else 0).sum := by
    intro u
    induction u with
    | nil => rfl
    | cons r u ih => simp_all [List.countP_cons, Nat.add_comm]
  have hsum := @sum_updateWhere _ _ _ key _ hn _ _ h (fun _ => true) f rfl fun r => if q r then 1 else 0
  rwa [← hcount, ← hcount] at hsum

lemma insertRow_eq_some {r : ρ} {t u : List ρ} (h : insertRow key r t = some u) :
    lookup key t (key r) = none ∧ u = t ++ [r] := by
  unfold insertRow at h
  split at h
  · cases h
  · rename_i hn
    exact ⟨by simpa using hn, by simpa using h.symm⟩

lemma insertRow_of_fresh {r : ρ} {t : List ρ} (h : lookup key t (key r) = none) :
    insertRow key r t = some (t ++ [r]) := by
  unfold insertRow
  rw [h]
  rfl

lemma lookup_insertRow {r : ρ} {t u : List ρ} (h : insertRow key r t = some u) (k : κ) :
    lookup key u k = if key r = k then some r else lookup key t k := by
  obtain ⟨hfresh, rfl⟩ := insertRow_eq_some h
  rw [lookup_append, lookup_cons, lookup_nil]
  by_cases hk : key r = k
  · subst hk
    simp [hfresh]
  · simp [hk]

lemma nodup_insertRow {r : ρ} {t u : List ρ} (h : insertRow key r t = some u)
    (hn : (t.map key).Nodup) : (u.map key).Nodup := by
  obtain ⟨hfresh, rfl⟩ := insertRow_eq_some h
  exact nodup_map_concat hn (lookup_eq_none.1 hfresh)

lemma lookup_deleteRow (k : κ) (t : List ρ) (k' : κ) :
    lookup key (deleteRow key k t) k' = if k' = k then none else lookup key t k' := by
  induction t with
  | nil => simp [deleteRow]
  | cons r t ih =>
    unfold deleteRow at ih ⊢
    rw [List.filter_cons]
    by_cases hr : key r = k
    · rw [if_neg (by simp [hr]), ih]
      by_cases hk : k' = k
      · simp [hk]
      · rw [if_neg hk, if_neg hk, lookup_cons, if_neg (by rw [hr]; exact Ne.symm hk)]
    · rw [if_pos (by simp [hr]), lookup_cons, ih, lookup_cons]
      by_cases hk : k' = k
      · subst hk
        simp [hr]
      · simp [hk]

lemma lookup_replaceRow (r : ρ) (t : List ρ) (k : κ) :
    lookup key (replaceRow key r t) k = if k = key r then some r else lookup key t k := by
  unfold replaceRow
  rw [lookup_append, lookup_deleteRow, lookup_cons, lookup_nil]
  by_cases hk : k = key r
  · simp [hk]
  · simp [hk, Ne.symm hk]

lemma nodup_deleteRow {t : List ρ} (hn : (t.map key).Nodup) (k : κ) : ((deleteRow key k t).map key).Nodup :=
  hn.sublist (List.Sublist.map key List.filter_sublist)

lemma nodup_replaceRow {t : List ρ} (hn : (t.map key).Nodup) (r : ρ) : ((replaceRow key r t).map key).Nodup := by
  unfold replaceRow
  refine nodup_map_concat (nodup_deleteRow hn _) fun x hx => ?_
  simpa using (List.mem_filter.1 hx).2

lemma lookup_updateRow (r : ρ) (t : List ρ) (k : κ) :
    lookup key (updateRow key r t) k = (lookup key t k).map fun x => if key x = key r then r else x := by
  induction t with
  | nil => rfl
  | cons x t ih =>
    unfold updateRow at ih ⊢
    rw [List.map_cons, lookup_cons, lookup_cons]
    by_cases hx : key x = key r
    · rw [if_pos hx]
      by_cases hk : key r = k
      · rw [if_pos hk, if_pos (hx.trans hk), Option.map_some, if_pos hx]
      · rw [if_neg hk, if_neg (by rwa [hx]), ih]
    · rw [if_neg hx]
      by_cases hk : key x = k
      · rw [if_pos hk, if_pos hk, Option.map_some, if_neg hx]
      · rw [if_neg hk, if_neg hk, ih]

lemma map_key_updateRow (r : ρ) (t : List ρ) : (updateRow key r t).map key = t.map key := by
  unfold updateRow
  rw [List.map_map]
  refine List.map_congr_left fun x _ => ?_
  change key (if key x = key r then r else x) = key x
  split
  · rename_i hx
    exact hx.symm
  · rfl

lemma mem_updateRow {r x : ρ} {t : List ρ} (h : x ∈ updateRow key r t) : x = r ∨ x ∈ t := by
  obtain ⟨y, hy, hx⟩ := List.mem_map.1 h
  split at hx
  · exact .inl hx.symm
  · exact .inr (hx ▸ hy)

lemma le_foldl_max (f : ρ → ℕ) {t : List ρ} {r : ρ} (h : r ∈ t) (n : ℕ) :
    f r ≤ t.foldl (fun n r => max n (f r)) n := by
  have hstart : ∀ (t : List ρ) (n : ℕ), n ≤ t.foldl (fun n r => max n (f r)) n := by
    intro t
    induction t with
    | nil => exact fun n => Nat.le_refl n
    | cons x t ih => exact fun n => Nat.le_trans (Nat.le_max_left _ _) (ih (max n (f x)))
  induction t generalizing n with
  | nil => cases h
  | cons x t ih =>
    rcases List.mem_cons.1 h with rfl | h
    · exact Nat.le_trans (Nat.le_max_right _ _) (hstart t _)
    · exact ih h _

end PromptForge.Tables
