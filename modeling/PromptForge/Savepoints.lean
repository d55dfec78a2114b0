import Mathlib.Data.List.Basic

/-!
# Savepoints

A connection inside a transaction works on tables of its own. Every savepoint that is
open keeps the tables as they were, and is found by its name, the innermost one first.
-/
namespace PromptForge.Savepoints

universe u
variable {σ : Type u}

structure Connection (σ : Type u) where
  working : σ
  savepoints : List (String × σ)

namespace Connection

def savepoint (name : String) (c : Connection σ) : Connection σ :=
  { c with savepoints := (name, c.working) :: c.savepoints }

def named (name : String) (c : Connection σ) : List (String × σ) := c.savepoints.dropWhile fun entry => entry.1 != name

def rollbackTo (name : String) (c : Connection σ) : Connection σ :=
  match c.named name with
  | [] => c
  | entry :: outer => ⟨entry.2, entry :: outer⟩

def release (name : String) (c : Connection σ) : Connection σ :=
  match c.named name with
  | [] => c
  | _ :: outer => ⟨c.working, outer⟩

lemma rollbackTo_own (name : String) (tables kept : σ) (outer : List (String × σ)) :
    rollbackTo name ⟨tables, (name, kept) :: outer⟩ = ⟨kept, (name, kept) :: outer⟩ := by
  simp [rollbackTo, named]

lemma release_own (name : String) (tables kept : σ) (outer : List (String × σ)) :
    release name ⟨tables, (name, kept) :: outer⟩ = ⟨tables, outer⟩ := by
  simp [release, named]

end Connection

inductive Executed (ε : Type u) where
  | nil
  | effect (e : ε) (next : Executed ε)
  | block (completed : Bool) (body next : Executed ε)

namespace Executed
variable {ε : Type u}

def append : Executed ε → Executed ε → Executed ε
  | .nil, t => t
  | .effect e next, t => .effect e (next.append t)
  | .block completed body next, t => .block completed body (next.append t)

def survivors : Executed ε → List ε
  | .nil => []
  | .effect e next => e :: next.survivors
  | .block true body next => body.survivors ++ next.survivors
  | .block false _ next => next.survivors

def outermost : Executed ε → List (List ε)
  | .nil => []
  | .effect _ next => next.outermost
  | .block true body next => body.survivors :: next.outermost
  | .block false _ next => next.outermost

/-- An effect and, from the outermost on, whether each block around it completed. -/
inductive Occurs (e : ε) : Executed ε → List Bool → Prop where
  | here (next : Executed ε) : Occurs e (.effect e next) []
  | effect (e' : ε) {next : Executed ε} {path : List Bool} (h : Occurs e next path) : Occurs e (.effect e' next) path
  | body (completed : Bool) {body : Executed ε} (next : Executed ε) {path : List Bool} (h : Occurs e body path) :
      Occurs e (.block completed body next) (completed :: path)
  | next (completed : Bool) (body : Executed ε) {next : Executed ε} {path : List Bool} (h : Occurs e next path) :
      Occurs e (.block completed body next) path

@[simp] lemma survivors_append (t t' : Executed ε) : (t.append t').survivors = t.survivors ++ t'.survivors := by
  induction t with
  | nil => rfl
  | effect e next ih => simp [append, survivors, ih]
  | block completed body next _ ih => cases completed <;> simp [append, survivors, ih]

@[simp] lemma outermost_append (t t' : Executed ε) : (t.append t').outermost = t.outermost ++ t'.outermost := by
  induction t with
  | nil => rfl
  | effect e next ih => simp [append, outermost, ih]
  | block completed body next _ ih => cases completed <;> simp [append, outermost, ih]

lemma mem_survivors (e : ε) (t : Executed ε) :
    e ∈ t.survivors ↔ ∃ path, Occurs e t path ∧ ∀ completed ∈ path, completed = true := by
  induction t with
  | nil =>
    constructor
    · intro h
      cases h
    · rintro ⟨path, h, -⟩
      cases h
  | effect e' next ih =>
    constructor
    · intro h
      rcases List.mem_cons.1 h with rfl | h
      · exact ⟨[], .here next, nofun⟩
      · obtain ⟨path, hoccurs, hall⟩ := ih.1 h
        exact ⟨path, .effect e' hoccurs, hall⟩
    · rintro ⟨path, h, hall⟩
      cases h with
      | here => exact List.mem_cons_self ..
      | effect _ h => exact List.mem_cons_of_mem _ (ih.2 ⟨path, h, hall⟩)
  | block completed body next ihbody ihnext =>
    constructor
    · intro h
      cases completed with
      | false =>
        obtain ⟨path, hoccurs, hall⟩ := ihnext.1 h
        exact ⟨path, .next false body hoccurs, hall⟩
      | true =>
        rcases List.mem_append.1 h with h | h
        · obtain ⟨path, hoccurs, hall⟩ := ihbody.1 h
          exact ⟨true :: path, .body true next hoccurs, List.forall_mem_cons.2 ⟨rfl, hall⟩⟩
        · obtain ⟨path, hoccurs, hall⟩ := ihnext.1 h
          exact ⟨path, .next true body hoccurs, hall⟩
    · rintro ⟨path, h, hall⟩
      cases h with
      | @body _ _ _ path h =>
        obtain ⟨hcompleted, hinner⟩ := List.forall_mem_cons.1 hall
        rw [hcompleted]
        exact List.mem_append_left _ (ihbody.2 ⟨path, h, hinner⟩)
      | next _ _ h =>
        have hmem := ihnext.2 ⟨path, h, hall⟩
        cases completed with
        | false => exact hmem
        | true => exact List.mem_append_right _ hmem

end Executed

end PromptForge.Savepoints
