import PromptForge.RegexLaws

/-!
# What a pattern matches

The places that a pattern leads to, without the order of preference. Backtracking ends at a place
that the pattern leads to and the continuation takes, and it ends at one wherever there is one.
-/
namespace PromptForge.Regex

def Leads (round : Cursor → Cursor → Prop) : ℕ → Cursor → Cursor → Prop
  | 0, s, s' => s' = s
  | n + 1, s, s' => ∃ m, round s m ∧ Leads round n m s'

def Matches : Pattern → Cursor → Cursor → Prop
  | .empty, s, s' => s' = s
  | .char accepts, s, s' => ∃ c rest, s.rest = c :: rest ∧ accepts c = true ∧ s' = s.advance c rest
  | .seq p q, s, s' => ∃ m, Matches p s m ∧ Matches q m s'
  | .alt p q, s, s' => Matches p s s' ∨ Matches q s s'
  | .rep low high _ p, s, s' => ∃ n, low ≤ n ∧ n ≤ low + (high.map (· - low)).getD s.rest.length ∧ Leads (Matches p) n s s'
  | .group index p, s, s' => ∃ m, Matches p s m ∧ s' = { m with groups := (index, between s m) :: m.groups }
  | .backref index, s, s' => ∃ text, s.groups.lookup index = some text ∧ (s.rest.take text.length).map lowerChar = text.map lowerChar ∧
      s' = { s with previous := text.getLast?.or s.previous, rest := s.rest.drop text.length }
  | .ahead p, s, s' => ∃ m, exec p s some = some m ∧ s' = { s with groups := m.groups }
  | .place holds, s, s' => holds s.previous s.rest.head? = true ∧ s' = s

/-- A matcher that finds what a relation leads to. -/
structure Finds (run : Cursor → Continuation → Option Cursor) (leads : Cursor → Cursor → Prop) : Prop where
  sound : ∀ {s k r}, run s k = some r → ∃ s', leads s s' ∧ k s' = some r
  complete : ∀ {s s'} {k : Continuation}, leads s s' → (k s').isSome = true → (run s k).isSome = true

section Rounds
variable {body : Cursor → Continuation → Option Cursor} {leads : Cursor → Cursor → Prop}

lemma isSome_orElse {α : Type} {o : Option α} {f : Unit → Option α} : (o.orElse f).isSome = true ↔ o.isSome = true ∨ (f ()).isSome = true := by
  cases o <;> simp

lemma some_of_orElse {α : Type} {o : Option α} {f : Unit → Option α} {a : α} (h : o.orElse f = some a) : o = some a ∨ f () = some a := by
  cases o with
  | none => exact .inr h
  | some b => exact .inl h

lemma moreRounds_finds (h : Finds body leads) (greedy : Bool) (high : ℕ) :
    Finds (moreRounds body greedy high) fun s s' => ∃ n ≤ high, Leads leads n s s' := by
  induction high with
  | zero =>
    constructor
    · intro s k r hr
      exact ⟨s, ⟨0, le_refl _, rfl⟩, hr⟩
    · rintro s s' k ⟨n, hn, hleads⟩ hk
      obtain rfl := Nat.le_zero.mp hn
      cases hleads
      exact hk
  | succ high ih =>
    have sound : ∀ {s k r}, (body s fun s' => moreRounds body greedy high s' k) = some r → ∃ s', (∃ n ≤ high + 1, Leads leads n s s') ∧ k s' = some r := by
      intro s k r hr
      obtain ⟨m, hm, hr⟩ := h.sound hr
      obtain ⟨s', ⟨n, hn, hleads⟩, hk⟩ := ih.sound hr
      exact ⟨s', ⟨n + 1, by omega, m, hm, hleads⟩, hk⟩
    constructor
    · intro s k r hr
      have here : k s = some r → ∃ s', (∃ n ≤ high + 1, Leads leads n s s') ∧ k s' = some r := fun hk => ⟨s, ⟨0, by omega, rfl⟩, hk⟩
      rw [moreRounds] at hr
      split at hr
      · exact (some_of_orElse hr).elim sound here
      · exact (some_of_orElse hr).elim here sound
    · rintro s s' k ⟨n, hn, hleads⟩ hk
      have more : (k s).isSome = true ∨ (body s fun s' => moreRounds body greedy high s' k).isSome = true := by
        cases n with
        | zero =>
          cases hleads
          exact .inl hk
        | succ n =>
          obtain ⟨m, hm, hleads⟩ := hleads
          exact .inr (h.complete hm (ih.complete ⟨n, by omega, hleads⟩ hk))
      rw [moreRounds]
      split
      · exact isSome_orElse.mpr more.symm
      · exact isSome_orElse.mpr more

lemma rounds_finds (h : Finds body leads) (greedy : Bool) (low high : ℕ) :
    Finds (rounds body greedy low high) fun s s' => ∃ n, low ≤ n ∧ n ≤ low + high ∧ Leads leads n s s' := by
  induction low with
  | zero =>
    constructor
    · intro s k r hr
      obtain ⟨s', ⟨n, hn, hleads⟩, hk⟩ := (moreRounds_finds h greedy high).sound hr
      exact ⟨s', ⟨n, by omega, by omega, hleads⟩, hk⟩
    · rintro s s' k ⟨n, -, hn, hleads⟩ hk
      exact (moreRounds_finds h greedy high).complete ⟨n, by omega, hleads⟩ hk
  | succ low ih =>
    constructor
    · intro s k r hr
      obtain ⟨m, hm, hr⟩ := h.sound hr
      obtain ⟨s', ⟨n, hlow, hn, hleads⟩, hk⟩ := ih.sound hr
      exact ⟨s', ⟨n + 1, by omega, by omega, m, hm, hleads⟩, hk⟩
    · rintro s s' k ⟨n, hlow, hn, hleads⟩ hk
      cases n with
      | zero => omega
      | succ n =>
        obtain ⟨m, hm, hleads⟩ := hleads
        exact h.complete hm (ih.complete ⟨n, by omega, by omega, hleads⟩ hk)

end Rounds

lemma exec_finds (p : Pattern) : Finds (exec p) (Matches p) := by
  induction p with
  | empty => exact ⟨fun hr => ⟨_, rfl, hr⟩, fun h hk => h ▸ hk⟩
  | char accepts =>
    constructor
    · intro s k r hr
      rw [exec] at hr
      split at hr
      · rename_i c rest hs
        split at hr
        · rename_i hc
          exact ⟨_, ⟨c, rest, hs, hc, rfl⟩, hr⟩
        · cases hr
      · cases hr
    · rintro s s' k ⟨c, rest, hs, hc, rfl⟩ hk
      simpa [exec, hs, hc] using hk
  | seq p q ihp ihq =>
    constructor
    · intro s k r hr
      obtain ⟨m, hm, hr⟩ := ihp.sound hr
      obtain ⟨s', hs', hk⟩ := ihq.sound hr
      exact ⟨s', ⟨m, hm, hs'⟩, hk⟩
    · rintro s s' k ⟨m, hm, hs'⟩ hk
      exact ihp.complete hm (ihq.complete hs' hk)
  | alt p q ihp ihq =>
    constructor
    · intro s k r hr
      rcases some_of_orElse hr with hr | hr
      · exact (ihp.sound hr).imp fun _ h => ⟨.inl h.1, h.2⟩
      · exact (ihq.sound hr).imp fun _ h => ⟨.inr h.1, h.2⟩
    · rintro s s' k h hk
      exact isSome_orElse.mpr (h.imp (fun h => ihp.complete h hk) fun h => ihq.complete h hk)
  | rep low high greedy p ih =>
    constructor
    · exact fun hr => (rounds_finds ih greedy low _).sound hr
    · exact fun h hk => (rounds_finds ih greedy low _).complete h hk
  | group index p ih =>
    constructor
    · intro s k r hr
      obtain ⟨m, hm, hk⟩ := ih.sound hr
      exact ⟨_, ⟨m, hm, rfl⟩, hk⟩
    · rintro s s' k ⟨m, hm, rfl⟩ hk
      exact ih.complete hm hk
  | backref index =>
    constructor
    · intro s k r hr
      rw [exec] at hr
      split at hr
      · cases hr
      · rename_i text htext
        split at hr
        · rename_i hsame
          exact ⟨_, ⟨text, htext, hsame, rfl⟩, hr⟩
        · cases hr
    · rintro s s' k ⟨text, htext, hsame, rfl⟩ hk
      simpa [exec, htext, hsame] using hk
  | ahead p ih =>
    constructor
    · intro s k r hr
      obtain ⟨m, hm, hk⟩ := Option.bind_eq_some_iff.mp hr
      exact ⟨_, ⟨m, hm, rfl⟩, hk⟩
    · rintro s s' k ⟨m, hm, rfl⟩ hk
      simpa [exec, hm] using hk
  | place holds =>
    constructor
    · intro s k r hr
      rw [exec] at hr
      split at hr
      · rename_i hplace
        exact ⟨s, ⟨hplace, rfl⟩, hr⟩
      · cases hr
    · rintro s s' k ⟨hplace, rfl⟩ hk
      simpa [exec, hplace] using hk

lemma isSome_exec {p : Pattern} {s : Cursor} : (exec p s some).isSome = true ↔ ∃ s', Matches p s s' := by
  constructor
  · intro h
    obtain ⟨r, hr⟩ := Option.isSome_iff_exists.mp h
    exact ((exec_finds p).sound hr).imp fun _ h => h.1
  · rintro ⟨s', h⟩
    exact (exec_finds p).complete h rfl

lemma leads_suffix {round : Cursor → Cursor → Prop} (h : ∀ {s s'}, round s s' → s'.rest <:+ s.rest) {n : ℕ} {s s' : Cursor}
    (hleads : Leads round n s s') : s'.rest <:+ s.rest := by
  induction n generalizing s with
  | zero =>
    cases hleads
    exact List.suffix_refl _
  | succ n ih =>
    obtain ⟨m, hm, hleads⟩ := hleads
    exact (ih hleads).trans (h hm)

lemma matches_suffix {p : Pattern} {s s' : Cursor} (h : Matches p s s') : s'.rest <:+ s.rest := by
  induction p generalizing s s' with
  | empty =>
    cases h
    exact List.suffix_refl _
  | char accepts =>
    obtain ⟨c, rest, hs, -, rfl⟩ := h
    rw [hs]
    exact List.suffix_cons c rest
  | seq p q ihp ihq =>
    obtain ⟨m, hm, h⟩ := h
    exact (ihq h).trans (ihp hm)
  | alt p q ihp ihq => exact h.elim ihp ihq
  | rep low high greedy p ih =>
    obtain ⟨n, -, -, h⟩ := h
    exact leads_suffix (fun hround => ih hround) h
  | group index p ih =>
    obtain ⟨m, hm, rfl⟩ := h
    exact (ih hm : m.rest <:+ s.rest)
  | backref index =>
    obtain ⟨text, -, -, rfl⟩ := h
    exact List.drop_suffix ..
  | ahead p =>
    obtain ⟨m, -, rfl⟩ := h
    exact List.suffix_refl _
  | place holds =>
    obtain ⟨-, rfl⟩ := h
    exact List.suffix_refl _

def Cursor.past (s : Cursor) (taken rest : List Char) : Cursor := ⟨taken.getLast?.or s.previous, rest, s.groups⟩

lemma past_advance (s : Cursor) (c : Char) (rest taken rest' : List Char) : (s.advance c rest).past taken rest' = s.past (c :: taken) rest' := by
  cases taken with
  | nil => rfl
  | cons d taken => simp [Cursor.past, Cursor.advance, List.getLast?_cons]

lemma matches_takes {cs : List Char} {s s' : Cursor} : Matches (takes cs) s s' ↔
    ∃ taken rest, s.rest = taken ++ rest ∧ taken.map foldCase = cs.map foldCase ∧ s' = s.past taken rest := by
  induction cs generalizing s with
  | nil =>
    constructor
    · rintro rfl
      exact ⟨[], s'.rest, rfl, rfl, rfl⟩
    · rintro ⟨taken, rest, hs, hsame, rfl⟩
      obtain rfl := List.map_eq_nil_iff.mp hsame
      rw [← hs.trans (List.nil_append rest)]
      rfl
  | cons c cs ih =>
    constructor
    · rintro ⟨m, ⟨d, rest, hs, hd, rfl⟩, h⟩
      obtain ⟨taken, rest', hrest, hsame, rfl⟩ := ih.mp h
      exact ⟨d :: taken, rest', by rw [hs]; exact congrArg _ hrest, by simpa [hsame] using hd, past_advance ..⟩
    · rintro ⟨taken, rest, hs, hsame, rfl⟩
      cases taken with
      | nil => cases hsame
      | cons d taken =>
        obtain ⟨hd, htaken⟩ := List.cons.inj hsame
        exact ⟨s.advance d (taken ++ rest), ⟨d, taken ++ rest, hs, by simpa using hd, rfl⟩, ih.mpr ⟨taken, rest, rfl, htaken, (past_advance ..).symm⟩⟩

lemma matches_alts {ps : List Pattern} {s s' : Cursor} : Matches (alts ps) s s' ↔ ∃ p ∈ ps, Matches p s s' := by
  induction ps with
  | nil => simp [alts, Matches]
  | cons p ps ih =>
    cases ps with
    | nil => simp [alts]
    | cons q ps =>
      rw [List.exists_mem_cons_iff]
      exact or_congr Iff.rfl ih

lemma leads_char {accepts : Char → Bool} {n : ℕ} {s s' : Cursor} : Leads (Matches (.char accepts)) n s s' ↔
    ∃ taken rest, s.rest = taken ++ rest ∧ taken.length = n ∧ (∀ c ∈ taken, accepts c = true) ∧ s' = s.past taken rest := by
  induction n generalizing s with
  | zero =>
    constructor
    · rintro rfl
      exact ⟨[], s'.rest, rfl, rfl, by simp, rfl⟩
    · rintro ⟨taken, rest, hs, hlength, -, rfl⟩
      obtain rfl := List.length_eq_zero_iff.mp hlength
      rw [← hs.trans (List.nil_append rest)]
      rfl
  | succ n ih =>
    constructor
    · rintro ⟨m, ⟨c, rest, hs, hc, rfl⟩, h⟩
      obtain ⟨taken, rest', hrest, hlength, hall, rfl⟩ := ih.mp h
      exact ⟨c :: taken, rest', by rw [hs]; exact congrArg _ hrest, by simp [hlength], List.forall_mem_cons.mpr ⟨hc, hall⟩, past_advance ..⟩
    · rintro ⟨taken, rest, hs, hlength, hall, rfl⟩
      cases taken with
      | nil => cases hlength
      | cons c taken =>
        obtain ⟨hc, hall⟩ := List.forall_mem_cons.mp hall
        exact ⟨s.advance c (taken ++ rest), ⟨c, taken ++ rest, hs, hc, rfl⟩,
          ih.mpr ⟨taken, rest, rfl, by simpa using hlength, hall, (past_advance ..).symm⟩⟩

lemma matches_star {accepts : Char → Bool} {greedy : Bool} {s s' : Cursor} : Matches (.rep 0 none greedy (.char accepts)) s s' ↔
    ∃ taken rest, s.rest = taken ++ rest ∧ (∀ c ∈ taken, accepts c = true) ∧ s' = s.past taken rest := by
  constructor
  · rintro ⟨n, -, -, h⟩
    obtain ⟨taken, rest, hs, -, hall, rfl⟩ := leads_char.mp h
    exact ⟨taken, rest, hs, hall, rfl⟩
  · rintro ⟨taken, rest, hs, hall, rfl⟩
    refine ⟨taken.length, Nat.zero_le _, ?_, leads_char.mpr ⟨taken, rest, hs, rfl, hall, rfl⟩⟩
    simp [hs]

section Layout
variable {p : Pattern}

def Consumes (p : Pattern) : Prop := ∀ s s', Matches p s s' → s'.rest.length < s.rest.length

/-- The text is what stands before a match, the match and what follows, and no match begins before it. -/
structure Splits (p : Pattern) (previous : Option Char) (text : List Char) (m : Found) : Prop where
  parts : text = m.before ++ (m.text ++ m.after)
  first : ∀ a b, m.before = a ++ b → b ≠ [] → exec p ⟨a.getLast?.or previous, b ++ (m.text ++ m.after), []⟩ some = none
  matched : (exec p ⟨m.before.getLast?.or previous, m.text ++ m.after, []⟩ some).isSome = true
  takes : Consumes p → m.text ≠ []

lemma splits_here {previous : Option Char} {before rest : List Char} {m : Found} (h : matchAt p previous before rest = some m) :
    m.before = before.reverse ∧ Splits p previous rest { m with before := [] } := by
  obtain ⟨s', hexec, hm⟩ := Option.map_eq_some_iff.mp h
  obtain ⟨r, hmatches, hr⟩ := (exec_finds p).sound hexec
  cases hr
  obtain ⟨taken, htaken⟩ := matches_suffix hmatches
  have htext : between ⟨previous, rest, []⟩ s' = taken := by
    unfold between
    rw [← htaken]
    simp
  subst hm
  refine ⟨rfl, ?_, ?_, ?_, fun hconsumes hempty => ?_⟩
  · simpa [htext] using htaken.symm
  · intro a b hab hb
    exact absurd (List.append_eq_nil_iff.mp hab.symm).2 hb
  · simp only [htext, List.getLast?_nil, Option.none_or]
    rw [htaken, hexec]
    rfl
  · have hless := hconsumes _ _ hmatches
    have hnone : taken = [] := htext.symm.trans hempty
    rw [hnone] at htaken
    exact absurd (congrArg List.length htaken) (Nat.ne_of_lt hless)

lemma splits_of_search {previous : Option Char} {before rest : List Char} {m : Found} (h : searchFrom p previous before rest = some m) :
    ∃ skipped, m.before = before.reverse ++ skipped ∧ Splits p previous rest { m with before := skipped } := by
  induction rest generalizing previous before with
  | nil =>
    obtain ⟨hbefore, hsplits⟩ := splits_here h
    exact ⟨[], by simpa using hbefore, hsplits⟩
  | cons c rest ih =>
    unfold searchFrom at h
    cases hfirst : matchAt p previous before (c :: rest) with
    | some m' =>
      rw [hfirst] at h
      cases h
      obtain ⟨hbefore, hsplits⟩ := splits_here hfirst
      exact ⟨[], by simpa using hbefore, hsplits⟩
    | none =>
      rw [hfirst] at h
      obtain ⟨skipped, hbefore, hsplits⟩ := ih h
      refine ⟨c :: skipped, by simpa using hbefore, ?_, fun a b hab hb => ?_, ?_, hsplits.takes⟩
      · exact congrArg (c :: ·) hsplits.parts
      · cases a with
        | nil =>
          rw [← hab.trans (List.nil_append b)]
          have hnone : exec p ⟨previous, c :: rest, []⟩ some = none := Option.map_eq_none_iff.mp hfirst
          rw [hsplits.parts] at hnone
          simpa using hnone
        | cons d a =>
          obtain ⟨rfl, hskipped⟩ := List.cons.inj hab
          rw [getLast?_cons_or]
          exact hsplits.first a b hskipped hb
      · dsimp only
        rw [getLast?_cons_or]
        exact hsplits.matched

/-- The text is cut into what stands outside the matches and the matches, and no match begins outside. -/
inductive Laid (p : Pattern) : Option Char → List Char → List Found → List Char → Prop where
  | last {previous : Option Char} {text : List Char} (hnone : ∀ a b, text = a ++ b → exec p ⟨a.getLast?.or previous, b, []⟩ some = none) :
      Laid p previous text [] text
  | more {previous : Option Char} {text last : List Char} {m : Found} {ms : List Found} (hsplits : Splits p previous text m)
      (hrest : Laid p ((m.before ++ m.text).getLast?.or previous) m.after ms last) : Laid p previous text (m :: ms) last

lemma laid_matches (h : Consumes p) {n : ℕ} {previous : Option Char} {text : List Char} (hn : text.length < n) :
    Laid p previous text (matches' p n previous text) (((matches' p n previous text).getLast?.map Found.after).getD text) := by
  induction n generalizing previous text with
  | zero => omega
  | succ n ih =>
    unfold matches'
    cases hsearch : searchFrom p previous [] text with
    | none => exact .last fun a b hab => exec_of_searchFrom hsearch a b hab
    | some m =>
      obtain ⟨skipped, hbefore, hsplits⟩ := splits_of_search hsearch
      have hm : { m with before := skipped } = m := by
        cases m
        simpa using hbefore.symm
      rw [hm] at hsplits
      have hless : m.after.length < n := by
        have hparts := congrArg List.length hsplits.parts
        have hpos := List.length_pos_iff.mpr (hsplits.takes h)
        simp only [List.length_append] at hparts
        omega
      have hlast : ∀ ms : List Found, ((m :: ms).getLast?.map Found.after).getD text = (ms.getLast?.map Found.after).getD m.after := by
        intro ms
        cases ms with
        | nil => rfl
        | cons m' ms => simp [List.getLast?_cons]
      dsimp only
      rw [hlast]
      exact .more hsplits (ih hless)

lemma laid_split (h : Consumes p) (text : List Char) :
    Laid p none text (findAll p text) (((findAll p text).getLast?.map Found.after).getD text) := laid_matches h (Nat.lt_succ_self _)

end Layout

end PromptForge.Regex
