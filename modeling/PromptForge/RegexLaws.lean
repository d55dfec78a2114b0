import PromptForge.Regex

/-! # What a pattern takes, and where it is not found -/
namespace PromptForge.Regex

def spelled (cs : List Char) : Pattern := cs.foldr (fun c p => .seq (.char (· == c)) p) .empty

def Over (P : Char → Prop) : Pattern → Prop
  | .char accepts => ∀ c, accepts c → P c
  | .seq p q => Over P p ∧ Over P q
  | .alt p q => Over P p ∧ Over P q
  | .rep _ _ _ p => Over P p
  | .group _ p => Over P p
  | .backref _ => False
  | .empty | .ahead _ | .place _ => True

def Takes (P : Char → Prop) (run : Cursor → Continuation → Option Cursor) : Prop :=
  ∀ s k r, run s k = some r → ∃ s' taken, k s' = some r ∧ s.rest = taken ++ s'.rest ∧ ∀ c ∈ taken, P c

variable {P : Char → Prop}

lemma Takes.seq {run run' : Cursor → Continuation → Option Cursor} (h : Takes P run) (h' : Takes P run') :
    Takes P fun s k => run s fun s' => run' s' k := by
  intro s k r hr
  obtain ⟨s₁, taken, hk, hrest, htaken⟩ := h s _ r hr
  obtain ⟨s₂, taken', hk', hrest', htaken'⟩ := h' s₁ k r hk
  refine ⟨s₂, taken ++ taken', hk', by simp [hrest, hrest'], fun c hc => ?_⟩
  cases List.mem_append.mp hc with
  | inl h => exact htaken c h
  | inr h => exact htaken' c h

lemma Takes.orElse {run run' : Cursor → Continuation → Option Cursor} (h : Takes P run) (h' : Takes P run') :
    Takes P fun s k => (run s k).orElse fun _ => run' s k := by
  intro s k r hr
  cases hs : run s k with
  | none => exact h' s k r (by simpa [hs] using hr)
  | some r' => exact h s k r (by simpa [hs] using hr)

lemma Takes.nothing : Takes P fun s k => k s := fun s _ _ hr => ⟨s, [], hr, rfl, by simp⟩

lemma Takes.moreRounds {body : Cursor → Continuation → Option Cursor} (h : Takes P body) (greedy : Bool) (high : ℕ) :
    Takes P (moreRounds body greedy high) := by
  induction high with
  | zero => exact Takes.nothing
  | succ high ih =>
    intro s k r hr
    rw [Regex.moreRounds] at hr
    split at hr
    · exact (h.seq ih).orElse Takes.nothing s k r hr
    · exact Takes.nothing.orElse (h.seq ih) s k r hr

lemma Takes.rounds {body : Cursor → Continuation → Option Cursor} (h : Takes P body) (greedy : Bool) (low high : ℕ) :
    Takes P (rounds body greedy low high) := by
  induction low with
  | zero => exact h.moreRounds greedy high
  | succ low ih => exact h.seq ih

lemma takes_exec {p : Pattern} (h : Over P p) : Takes P (exec p) := by
  induction p with
  | empty => exact Takes.nothing
  | char accepts =>
    intro s k r hr
    rw [exec] at hr
    split at hr
    · rename_i c rest hs
      split at hr
      · rename_i hc
        exact ⟨_, [c], hr, hs, fun d hd => List.mem_singleton.mp hd ▸ h c hc⟩
      · cases hr
    · cases hr
  | seq p q ihp ihq => exact (ihp h.1).seq (ihq h.2)
  | alt p q ihp ihq => exact (ihp h.1).orElse (ihq h.2)
  | rep low high greedy p ih =>
    intro s k r hr
    exact (ih h).rounds greedy low _ s k r hr
  | group index p ih =>
    intro s k r hr
    obtain ⟨s', taken, hk, hrest, htaken⟩ := ih h s _ r hr
    exact ⟨_, taken, hk, hrest, htaken⟩
  | backref index => exact h.elim
  | ahead p ih =>
    intro s k r hr
    obtain ⟨s', -, hk⟩ := Option.bind_eq_some_iff.mp hr
    exact ⟨_, [], hk, rfl, by simp⟩
  | place holds =>
    intro s k r hr
    rw [exec] at hr
    split at hr
    · exact ⟨s, [], hr, rfl, by simp⟩
    · cases hr

lemma of_fullMatch {p : Pattern} (h : Over P p) {text : List Char} (hm : fullMatch p text = true) : ∀ c ∈ text, P c := by
  obtain ⟨r, hr⟩ := Option.isSome_iff_exists.mp hm
  obtain ⟨s', taken, hk, hrest, htaken⟩ := takes_exec h _ _ r hr
  simp only [Option.ite_none_right_eq_some] at hk
  rw [hk.1, List.append_nil] at hrest
  change text = taken at hrest
  rwa [hrest]

lemma orElse_none {α : Type} {o o' : Option α} (h : (o.orElse fun _ => o') = none) : o = none ∧ o' = none := by
  cases o with
  | none => exact ⟨rfl, h⟩
  | some a => cases h

lemma getLast?_cons_or (c : Char) (a : List Char) (previous : Option Char) : (c :: a).getLast?.or previous = a.getLast?.or (some c) := by
  cases a with
  | nil => rfl
  | cons d a => rw [List.getLast?_cons_cons, List.getLast?_cons, Option.some_or, Option.some_or]

lemma exec_of_searchFrom {p : Pattern} {before rest : List Char} {previous : Option Char}
    (h : searchFrom p previous before rest = none) (a b : List Char) (hrest : rest = a ++ b) :
    exec p ⟨a.getLast?.or previous, b, []⟩ some = none := by
  have here : ∀ {before rest : List Char} {previous : Option Char},
      matchAt p previous before rest = none → exec p ⟨previous, rest, []⟩ some = none := fun h => Option.map_eq_none_iff.mp h
  induction rest generalizing before previous a with
  | nil =>
    obtain ⟨rfl, rfl⟩ := List.append_eq_nil_iff.mp hrest.symm
    exact here h
  | cons c rest ih =>
    obtain ⟨first, later⟩ := orElse_none h
    cases a with
    | nil =>
      have hb : c :: rest = b := hrest
      simpa [← hb] using here first
    | cons d a =>
      obtain ⟨rfl, htail⟩ := List.cons.inj hrest
      rw [getLast?_cons_or]
      exact ih later a htail

lemma exec_of_not_found {p : Pattern} {text : List Char} (h : found p text = false) {a b : List Char} (ht : text = a ++ b) :
    exec p ⟨a.getLast?, b, []⟩ some = none := by
  have hs : search p text = none := by simpa [found] using h
  simpa using exec_of_searchFrom hs a b ht

lemma exec_alts {ps : List Pattern} {s : Cursor} {k : Continuation} (h : exec (alts ps) s k = none) {p : Pattern}
    (hp : p ∈ ps) : exec p s k = none := by
  induction ps with
  | nil => cases hp
  | cons q ps ih =>
    cases ps with
    | nil => rwa [List.mem_singleton.mp hp]
    | cons q' ps =>
      obtain ⟨first, others⟩ := orElse_none h
      cases List.mem_cons.mp hp with
      | inl same => exact same ▸ first
      | inr later => exact ih others later

lemma exec_spelled (cs : List Char) (s : Cursor) (k : Continuation) (h : cs <+: s.rest) :
    ∃ s', exec (spelled cs) s k = k s' ∧ s'.rest = s.rest.drop cs.length := by
  induction cs generalizing s with
  | nil => exact ⟨s, rfl, rfl⟩
  | cons c cs ih =>
    obtain ⟨rest, hrest⟩ := h
    obtain ⟨s', hexec, hs'⟩ := ih (s.advance c (cs ++ rest)) ⟨rest, rfl⟩
    refine ⟨s', ?_, ?_⟩
    · rw [← hexec]
      simp [spelled, exec, ← hrest]
    · rw [hs', ← hrest]
      simp [Cursor.advance]

end PromptForge.Regex
