import PromptForge.CircuitBreaker

namespace PromptForge.CircuitBreaker
open Runs Tables

variable (breaker : ProviderCircuitBreaker)

def settledRow (identity : String) (row : Option EndpointHealth) (probe : Option ProbeId) (now : ℚ)
    (settlement : Settlement) : Option EndpointHealth :=
  if discarded row probe now then row
  else match settlement with
    | .cancelled => if probe.isSome then row.map EndpointHealth.withoutProbe else row
    | .success => none
    | .failure retryAfterMs jitter => some (failedRow breaker identity
        ((row.map EndpointHealth.failures).getD 0) now retryAfterMs jitter)

variable {row : EndpointHealth} {probe : Option ProbeId} {now : ℚ}

lemma discarded_of_other
    (hp : row.probeId.isSome) (hne : probe ≠ row.probeId) : discarded (some row) probe now = true := by
  simp [discarded, hp, Ne.symm hne]

variable {p : ProbeId}

lemma probe_of_kept {row : Option EndpointHealth}
    (h : discarded row (some p) now = false) : ∃ r, row = some r ∧ r.probeId = some p := by
  cases row with
  | none => simp [discarded] at h
  | some r =>
    refine ⟨r, rfl, ?_⟩
    by_contra hne
    simp [discarded, hne] at h

lemma health?_settle (identity : String) (probe : Option ProbeId) (now : ℚ)
    (settlement : Settlement) (t : Table) (other : String) :
    health? (settle breaker identity probe now settlement t).2 other =
      if other = identity then settledRow breaker identity (health? t identity) probe now settlement
      else health? t other := by
  unfold settle settledRow transaction
  by_cases hd : discarded (health? t identity) probe now = true
  · simp only [hd, if_true]
    split
    · rename_i h
      rw [h]
    · rfl
  · simp only [hd]
    cases settlement with
    | cancelled =>
      cases probe with
      | none =>
        simp only [Option.isSome_none, Bool.false_eq_true, if_false]
        split
        · rename_i h
          rw [h]
        · rfl
      | some p =>
        obtain ⟨r, hr, hp⟩ := probe_of_kept (by simpa using hd)
        simp only [Option.isSome_some, if_true, Bool.false_eq_true, if_false]
        rw [health?, lookup_updateWhere withoutProbe_identity]
        by_cases ho : other = identity
        · subst ho
          rw [if_pos rfl, show lookup EndpointHealth.identity t other = some r from hr, hr]
          simp [show r.identity = other from lookup_key hr, hp]
        · rw [if_neg ho]
          rcases hrow : lookup EndpointHealth.identity t other with _ | r'
          · rw [health?, hrow]; rfl
          · have hid : r'.identity = other := lookup_key hrow
            rw [health?, hrow]
            simp [hid, ho]
    | success =>
      simp only [Bool.false_eq_true, if_false]
      rw [health?, lookup_deleteRow]
    | failure retryAfterMs jitter =>
      simp only [Bool.false_eq_true, if_false]
      rw [health?, lookup_replaceRow]
      rfl

lemma admit_cases (identity : String) (now : ℚ) (probe : ProbeId) (t : Table) :
    (∃ row, health? t identity = some row ∧ (now < row.openUntil ∨ now < row.probeUntil) ∧
      admitCall breaker identity now probe t = (.error (coolingDown (delayMs row now)), t)) ∨
    (∃ row, health? t identity = some row ∧ row.openUntil ≤ now ∧ row.probeUntil ≤ now ∧
      breaker.failureThreshold ≤ row.failures ∧ admitCall breaker identity now probe t =
        (.ok (some probe), updateWhere (fun r => r.identity = identity)
          (EndpointHealth.withProbe probe (now + 350)) t)) ∨
    ((∀ row, health? t identity = some row → row.openUntil ≤ now ∧ row.probeUntil ≤ now ∧
      row.failures < breaker.failureThreshold) ∧
      admitCall breaker identity now probe t = (.ok none, t)) := by
  rcases hrow : health? t identity with _ | row
  · refine .inr (.inr ⟨nofun, transaction_commits ?_⟩)
    simp only [hrow]
  · by_cases hwait : now < row.openUntil ∨ now < row.probeUntil
    · refine .inl ⟨row, rfl, hwait, transaction_raises ?_⟩
      simp only [hrow, hwait, if_true]
    · obtain ⟨hopen, hprobe⟩ := not_or.1 hwait
      by_cases hth : breaker.failureThreshold ≤ row.failures
      · refine .inr (.inl ⟨row, rfl, not_lt.1 hopen, not_lt.1 hprobe, hth, transaction_commits ?_⟩)
        simp only [hrow, hwait, hth, if_true, if_false]
      · refine .inr (.inr ⟨?_, transaction_commits ?_⟩)
        · rintro _ ⟨⟩
          exact ⟨not_lt.1 hopen, not_lt.1 hprobe, not_le.1 hth⟩
        · simp only [hrow, hwait, hth, if_false]

lemma cooldown_pos {failures : ℕ} (h : breaker.failureThreshold ≤ failures)
    (retryAfterMs : Option ℕ) (jitter : Jitter) : 0 < cooldown breaker failures retryAfterMs jitter := by
  unfold cooldown
  rw [if_pos h]
  have hj : (0 : ℚ) < jitter.1 := lt_of_lt_of_le one_pos jitter.2.1
  have hbase : (0 : ℚ) < min 120 (30 * 2 ^ min (failures - breaker.failureThreshold) 2) := by
    refine lt_min (by norm_num) ?_
    positivity
  exact lt_max_of_lt_left (mul_pos hbase hj)

variable {identity : String}

lemma openUntil_failedRow {previous : ℕ} {retryAfterMs : Option ℕ}
    {jitter : Jitter} (h : breaker.failureThreshold ≤ nextFailures breaker previous retryAfterMs) :
    now < (failedRow breaker identity previous now retryAfterMs jitter).openUntil := by
  have hpos := cooldown_pos breaker h retryAfterMs jitter
  change now < if _ then now + cooldown breaker _ retryAfterMs jitter else 0
  rw [if_pos hpos.ne']
  linarith

lemma cap_le_nextFailures (previous : ℕ) (retryAfterMs : Option ℕ) :
    min 16 (previous + 1) ≤ nextFailures breaker previous retryAfterMs := by
  unfold nextFailures
  split
  · exact le_max_right _ _
  · exact le_refl _

lemma threshold_le_nextFailures (hcap : breaker.failureThreshold ≤ 16) {previous : ℕ}
    (h : breaker.failureThreshold ≤ previous + 1) (retryAfterMs : Option ℕ) :
    breaker.failureThreshold ≤ nextFailures breaker previous retryAfterMs :=
  (le_min hcap h).trans (cap_le_nextFailures breaker previous retryAfterMs)

abbrev Step := Entry World Action Answer

abbrev history (actions : List Action) : List Step := trace (step breaker) .initial actions

abbrev rowBefore (e : Step) (identity : String) : Option EndpointHealth := health? e.before.table identity
abbrev rowAfter (e : Step) (identity : String) : Option EndpointHealth := health? e.after.table identity

def IssuesProbe (e : Step) (identity : String) (probe : ProbeId) (now : ℚ) : Prop :=
  e.action = .admitCall identity now ∧ e.outcome = .admitted (some probe)

def SettlesProbe (e : Step) (identity : String) (probe : ProbeId) : Prop :=
  ∃ now settlement, e.action = .settle identity (some probe) now settlement

def counted (n : ℕ) : Settlement → ℕ
  | .cancelled => n
  | .success => 0
  | .failure _ _ => n + 1

def streak (identity : String) (es : List Step) : ℕ :=
  es.foldl (fun n e => match e.action with
    | .admitCall _ _ => n
    | .settle other probe now settlement =>
      if other ≠ identity ∨ discarded (rowBefore e identity) probe now then n
      else counted n settlement) 0

structure Safe (es : List Step) : Prop where
  /-- Of two probes let out, the first was settled in between or had its lease read as over. -/
  oneProbe : ∀ pre e mid e' post, es = pre ++ e :: (mid ++ e' :: post) →
    ∀ identity p now p' now', IssuesProbe e identity p now → IssuesProbe e' identity p' now' →
      (∃ s ∈ mid, SettlesProbe s identity p) ∨
      ∃ r ∈ mid ++ [e'], ∃ q later, IssuesProbe r identity q later ∧ now + 350 ≤ later
  openRefuses : ∀ e ∈ es, ∀ identity now row, e.action = .admitCall identity now →
    rowBefore e identity = some row →
      (now < row.openUntil ∨ now < row.probeUntil →
        (∃ error, e.outcome = .refused error) ∧ e.after = e.before) ∧
      (breaker.failureThreshold ≤ row.failures → e.outcome ≠ .admitted none)
  onlyTheProbe : ∀ e ∈ es, ∀ identity other probe now settlement row,
    e.action = .settle other probe now settlement → rowBefore e identity = some row →
      now < row.openUntil ∨ row.probeId.isSome → rowAfter e identity ≠ rowBefore e identity →
        other = identity ∧ probe.isSome ∧ probe = row.probeId
  neverClosed : ∀ e ∈ es, ∀ identity probe now settlement row,
    e.action = .settle identity probe now settlement → rowBefore e identity = some row →
      breaker.failureThreshold ≤ row.failures → probe = none ∨ probe ≠ row.probeId →
        ∃ row', rowAfter e identity = some row' ∧ breaker.failureThreshold ≤ row'.failures
  opens : ∀ pre e post, es = pre ++ e :: post → ∀ identity probe now retryAfterMs jitter,
    e.action = .settle identity probe now (.failure retryAfterMs jitter) →
      discarded (rowBefore e identity) probe now = false →
      breaker.failureThreshold ≤ streak identity (pre ++ [e]) →
        ∃ row, rowAfter e identity = some row ∧ breaker.failureThreshold ≤ row.failures ∧
          now < row.openUntil

def NoLateSuccess (e : Step) : Prop :=
  ∀ identity now row, e.action = .settle identity none now .success →
    rowBefore e identity = some row → row.openUntil ≤ now → row.probeId = none →
      row.failures < breaker.failureThreshold

variable {breaker}

lemma rowAfter_settle (w : World) (identity : String) (probe : Option ProbeId) (now : ℚ)
    (settlement : Settlement) (other : String) :
    rowAfter (entry (step breaker) w (.settle identity probe now settlement)) other =
      if other = identity then
        settledRow breaker identity (health? w.table identity) probe now settlement
      else health? w.table other :=
  health?_settle breaker identity probe now settlement w.table other

variable (breaker) in
lemma admit_step (w : World) (identity : String) (now : ℚ) :
    (∃ row, health? w.table identity = some row ∧ (now < row.openUntil ∨ now < row.probeUntil) ∧
      step breaker w (.admitCall identity now) = (.refused (coolingDown (delayMs row now)), w)) ∨
    (∃ row, health? w.table identity = some row ∧ row.openUntil ≤ now ∧ row.probeUntil ≤ now ∧
      breaker.failureThreshold ≤ row.failures ∧ step breaker w (.admitCall identity now) =
        (.admitted (some w.nextProbe), ⟨updateWhere (fun r => r.identity = identity)
          (EndpointHealth.withProbe w.nextProbe (now + 350)) w.table, w.nextProbe + 1⟩)) ∨
    ((∀ row, health? w.table identity = some row → row.openUntil ≤ now ∧ row.probeUntil ≤ now ∧
      row.failures < breaker.failureThreshold) ∧
      step breaker w (.admitCall identity now) = (.admitted none, w)) := by
  rcases admit_cases breaker identity now w.nextProbe w.table with
    ⟨row, hrow, hwait, h⟩ | ⟨row, hrow, hopen, hprobe, hth, h⟩ | ⟨hrow, h⟩
  · refine .inl ⟨row, hrow, hwait, ?_⟩
    simp only [step, h]
  · refine .inr (.inl ⟨row, hrow, hopen, hprobe, hth, ?_⟩)
    simp only [step, h, Option.isSome_some, if_true]
  · refine .inr (.inr ⟨hrow, ?_⟩)
    simp only [step, h, Option.isSome_none, Bool.false_eq_true, if_false]

lemma health?_withProbe (t : Table) (identity : String) (probe : ProbeId) (until_ : ℚ)
    (other : String) : health? (updateWhere (fun r => r.identity = identity)
      (EndpointHealth.withProbe probe until_) t) other =
        if other = identity then (health? t identity).map (EndpointHealth.withProbe probe until_)
        else health? t other := by
  rw [health?, lookup_updateWhere (withProbe_identity probe until_)]
  rcases hrow : lookup EndpointHealth.identity t other with _ | r
  · split
    · rename_i h
      rw [← h, health?, hrow]
      rfl
    · rw [health?, hrow]
      rfl
  · have hid : r.identity = other := lookup_key hrow
    split
    · rename_i h
      rw [← h, health?, hrow]
      simp [hid, h]
    · rename_i h
      rw [health?, hrow]
      simp [hid, h]

def Carries (w : World) (identity : String) (probe : ProbeId) (until_ : ℚ) : Prop :=
  ∃ row, health? w.table identity = some row ∧ row.probeId = some probe ∧ row.probeUntil = until_

variable {w : World}

lemma carries_of_issues {a : Action} {probe : ProbeId}
    (h : IssuesProbe (entry (step breaker) w a) identity probe now) :
    Carries (step breaker w a).2 identity probe (now + 350) := by
  obtain ⟨rfl, ho⟩ : a = .admitCall identity now ∧ (step breaker w a).1 = .admitted (some probe) := h
  rcases admit_step breaker w identity now with
    ⟨row, -, -, h⟩ | ⟨row, hrow, -, -, -, h⟩ | ⟨-, h⟩
  · rw [h] at ho
    cases ho
  · rw [h] at ho ⊢
    cases ho
    refine ⟨row.withProbe w.nextProbe (now + 350), ?_, rfl, rfl⟩
    rw [health?_withProbe, if_pos rfl, hrow]
    rfl
  · rw [h] at ho
    cases ho

lemma due_of_issues {a : Action} {probe : ProbeId} {u : ℚ}
    (h : IssuesProbe (entry (step breaker) w a) identity probe now) (hc : Carries w identity p u) :
    u ≤ now := by
  obtain ⟨rfl, ho⟩ : a = .admitCall identity now ∧ (step breaker w a).1 = .admitted (some probe) := h
  obtain ⟨row, hrow, -, rfl⟩ := hc
  rcases admit_step breaker w identity now with
    ⟨_, -, -, h⟩ | ⟨row', hrow', -, hdue, -⟩ | ⟨-, h⟩
  · rw [h] at ho
    cases ho
  · obtain rfl : row = row' := Option.some.inj (hrow.symm.trans hrow')
    exact hdue
  · rw [h] at ho
    cases ho

lemma step_carries {u : ℚ}
    (hc : Carries w identity p u) (a : Action) :
    SettlesProbe (entry (step breaker) w a) identity p ∨
    (∃ q later, IssuesProbe (entry (step breaker) w a) identity q later ∧ u ≤ later) ∨
    Carries (step breaker w a).2 identity p u := by
  obtain ⟨row, hrow, hp, hu⟩ := id hc
  cases a with
  | admitCall other now =>
    rcases admit_step breaker w other now with
      ⟨_, -, -, h⟩ | ⟨row', hrow', -, -, -, h⟩ | ⟨-, h⟩
    · exact .inr (.inr (by rw [h]; exact hc))
    · by_cases ho : other = identity
      · subst ho
        have hi : IssuesProbe (entry (step breaker) w (.admitCall other now)) other w.nextProbe now :=
          ⟨rfl, by rw [entry_outcome, h]⟩
        exact .inr (.inl ⟨_, now, hi, due_of_issues hi hc⟩)
      · refine .inr (.inr ⟨row, ?_, hp, hu⟩)
        rw [h, health?_withProbe, if_neg (Ne.symm ho), hrow]
    · exact .inr (.inr (by rw [h]; exact hc))
  | settle other probe now settlement =>
    by_cases hown : other = identity ∧ probe = some p
    · obtain ⟨rfl, rfl⟩ := hown
      exact .inl ⟨now, settlement, rfl⟩
    · refine .inr (.inr ⟨row, ?_, hp, hu⟩)
      change rowAfter (entry (step breaker) w (.settle other probe now settlement)) identity = _
      rw [rowAfter_settle]
      split
      · rename_i ho
        subst ho
        have hne : probe ≠ row.probeId := fun h => hown ⟨rfl, h.trans hp⟩
        unfold settledRow
        rw [hrow, discarded_of_other (by rw [hp]; rfl) hne, if_pos rfl]
      · exact hrow

lemma run_carries {u : ℚ}
    (hc : Carries w identity p u) (actions : List Action) :
    (∃ s ∈ trace (step breaker) w actions, SettlesProbe s identity p) ∨
    (∃ r ∈ trace (step breaker) w actions, ∃ q later, IssuesProbe r identity q later ∧ u ≤ later) ∨
    Carries (final (step breaker) w actions) identity p u := by
  induction actions generalizing w with
  | nil => exact .inr (.inr hc)
  | cons a as ih =>
    rcases step_carries hc a with hs | ⟨q, later, hi, hle⟩ | hc'
    · exact .inl ⟨_, List.mem_cons_self .., hs⟩
    · exact .inr (.inl ⟨_, List.mem_cons_self .., q, later, hi, hle⟩)
    · rcases ih hc' with ⟨s, hs, h⟩ | ⟨r, hr, h⟩ | h
      · exact .inl ⟨s, List.mem_cons_of_mem _ hs, h⟩
      · exact .inr (.inl ⟨r, List.mem_cons_of_mem _ hr, h⟩)
      · exact .inr (.inr h)

lemma oneProbe_history (actions : List Action) (pre : List Step) (e : Step) (mid : List Step)
    (e' : Step) (post : List Step) (hsplit : history breaker actions = pre ++ e :: (mid ++ e' :: post))
    (identity : String) (p : ProbeId) (now : ℚ) (p' : ProbeId) (now' : ℚ)
    (hi : IssuesProbe e identity p now) (hi' : IssuesProbe e' identity p' now') :
    (∃ s ∈ mid, SettlesProbe s identity p) ∨
      ∃ r ∈ mid ++ [e'], ∃ q later, IssuesProbe r identity q later ∧ now + 350 ≤ later := by
  obtain ⟨as₁, a, as₂, -, -, he, hrest⟩ := trace_split hsplit
  obtain ⟨bs₁, b, bs₂, -, hmid, he', -⟩ := trace_split hrest.symm
  subst he he'
  have hc : Carries (step breaker (final (step breaker) .initial as₁) a).2 identity p (now + 350) :=
    carries_of_issues hi
  rcases run_carries hc bs₁ with ⟨s, hs, h⟩ | ⟨r, hr, q, later, hq, hle⟩ | hc'
  · exact .inl ⟨s, hmid ▸ hs, h⟩
  · exact .inr ⟨r, List.mem_append_left _ (hmid ▸ hr), q, later, hq, hle⟩
  · exact .inr ⟨_, List.mem_append_right _ (List.mem_singleton_self _), p', now', hi',
      due_of_issues hi' hc'⟩

def failuresOf (row : Option EndpointHealth) : ℕ := (row.map EndpointHealth.failures).getD 0

lemma streak_snoc (identity : String) (es : List Step) (e : Step) :
    streak identity (es ++ [e]) = match e.action with
      | .admitCall _ _ => streak identity es
      | .settle other probe now settlement =>
        if other ≠ identity ∨ discarded (rowBefore e identity) probe now then streak identity es
        else counted (streak identity es) settlement := by
  unfold streak
  rw [List.foldl_append]
  rfl

variable {settlement : Settlement}

lemma streak_settle {es : List Step} {e : Step}
    (ha : e.action = .settle identity probe now settlement)
    (hd : discarded (rowBefore e identity) probe now = false) :
    streak identity (es ++ [e]) = counted (streak identity es) settlement := by
  rw [streak_snoc, ha]
  dsimp only
  rw [if_neg (by simp [hd])]

lemma failuresOf_settledRow {row : Option EndpointHealth}
    (hd : discarded row probe now = false)
    (settlement : Settlement) :
    failuresOf (settledRow breaker identity row probe now settlement) = match settlement with
      | .cancelled => failuresOf row
      | .success => 0
      | .failure retryAfterMs _ => nextFailures breaker (failuresOf row) retryAfterMs := by
  unfold settledRow
  rw [if_neg (by simp [hd])]
  cases settlement with
  | cancelled =>
    dsimp only
    split
    · unfold failuresOf
      rw [Option.map_map]
      rfl
    · rfl
  | success => rfl
  | failure retryAfterMs jitter => rfl

variable (breaker) in
lemma streak_le_failures (identity : String) (actions : List Action) :
    min 16 (streak identity (history breaker actions)) ≤
      failuresOf (health? (final (step breaker) .initial actions).table identity) := by
  induction actions using List.reverseRecOn with
  | nil => exact le_refl _
  | append_singleton as a ih =>
    rw [history, trace_append, final_append]
    change min 16 (streak identity (history breaker as ++ [entry (step breaker) _ a])) ≤
      failuresOf (rowAfter (entry (step breaker) (final (step breaker) .initial as) a) identity)
    generalize final (step breaker) .initial as = w at ih ⊢
    cases a with
    | admitCall other now =>
      rw [streak_snoc]
      change min 16 (streak identity (history breaker as)) ≤
        failuresOf (health? (step breaker w (.admitCall other now)).2.table identity)
      rcases admit_step breaker w other now with
        ⟨_, -, -, h⟩ | ⟨_, -, -, -, -, h⟩ | ⟨-, h⟩
      · rw [h]
        exact ih
      · rw [h, health?_withProbe]
        split
        · rename_i ho
          rw [failuresOf, Option.map_map, ← ho]
          exact ih
        · exact ih
      · rw [h]
        exact ih
    | settle other probe now settlement =>
      rw [rowAfter_settle]
      by_cases ho : other = identity
      · subst ho
        rw [if_pos rfl]
        by_cases hd : discarded (health? w.table other) probe now = true
        · unfold settledRow
          rw [streak_snoc, if_pos hd]
          change min 16 (if _ then _ else _) ≤ _
          rw [if_pos (.inr hd)]
          exact ih
        · have hd : discarded (health? w.table other) probe now = false := by simpa using hd
          rw [streak_settle rfl hd, failuresOf_settledRow hd]
          cases settlement with
          | cancelled => exact ih
          | success => exact Nat.min_le_right _ _
          | failure retryAfterMs jitter =>
            refine le_trans ?_ (cap_le_nextFailures breaker _ retryAfterMs)
            change min 16 (streak other (history breaker as) + 1) ≤ _
            omega
      · rw [streak_snoc, if_neg (Ne.symm ho)]
        change min 16 (if _ then _ else _) ≤ _
        rw [if_pos (.inl ho)]
        exact ih

lemma opens_history (hcap : breaker.failureThreshold ≤ 16) (actions : List Action)
    (pre : List Step) (e : Step) (post : List Step)
    (hsplit : history breaker actions = pre ++ e :: post) (identity : String)
    (probe : Option ProbeId) (now : ℚ) (retryAfterMs : Option ℕ) (jitter : Jitter)
    (ha : e.action = .settle identity probe now (.failure retryAfterMs jitter))
    (hd : discarded (rowBefore e identity) probe now = false)
    (hs : breaker.failureThreshold ≤ streak identity (pre ++ [e])) :
    ∃ row, rowAfter e identity = some row ∧ breaker.failureThreshold ≤ row.failures ∧
      now < row.openUntil := by
  obtain ⟨as₁, a, as₂, -, hpre, he, -⟩ := trace_split hsplit
  obtain rfl : a = .settle identity probe now (.failure retryAfterMs jitter) := by rw [← ha, he]; rfl
  rw [streak_settle ha hd] at hs
  have hcount := streak_le_failures breaker identity as₁
  rw [← show pre = history breaker as₁ from hpre] at hcount
  subst he
  generalize final (step breaker) World.initial as₁ = w at hcount hd ⊢
  have hprev : breaker.failureThreshold ≤ failuresOf (health? w.table identity) + 1 := by
    have hs : breaker.failureThreshold ≤ streak identity pre + 1 := hs
    omega
  have hth := threshold_le_nextFailures breaker hcap hprev retryAfterMs
  refine ⟨failedRow breaker identity (failuresOf (health? w.table identity)) now retryAfterMs jitter,
    ?_, hth, openUntil_failedRow breaker hth⟩
  rw [rowAfter_settle, if_pos rfl]
  have hd : discarded (health? w.table identity) probe now = false := hd
  unfold settledRow
  rw [hd]
  rfl

lemma openRefuses_entry
    (hrow : health? w.table identity = some row) :
    (now < row.openUntil ∨ now < row.probeUntil →
      (∃ error, (step breaker w (.admitCall identity now)).1 = .refused error) ∧
        (step breaker w (.admitCall identity now)).2 = w) ∧
    (breaker.failureThreshold ≤ row.failures →
      (step breaker w (.admitCall identity now)).1 ≠ .admitted none) := by
  rcases admit_step breaker w identity now with
    ⟨_, -, -, h⟩ | ⟨row', hrow', hopen, hprobe, -, h⟩ | ⟨hall, h⟩
  · rw [h]
    exact ⟨fun _ => ⟨⟨_, rfl⟩, rfl⟩, fun _ => nofun⟩
  · obtain rfl : row = row' := Option.some.inj (hrow.symm.trans hrow')
    refine ⟨fun hwait => ?_, fun _ => by rw [h]; nofun⟩
    rcases hwait with hwait | hwait
    · exact absurd hopen (not_le.2 hwait)
    · exact absurd hprobe (not_le.2 hwait)
  · obtain ⟨hopen, hprobe, hlt⟩ := hall row hrow
    refine ⟨fun hwait => ?_, fun hth => absurd hth (not_le.2 hlt)⟩
    rcases hwait with hwait | hwait
    · exact absurd hopen (not_le.2 hwait)
    · exact absurd hprobe (not_le.2 hwait)

lemma probe_of_changed
    (hheld : now < row.openUntil ∨ row.probeId.isSome)
    (hne : settledRow breaker identity (some row) probe now settlement ≠ some row) :
    probe.isSome ∧ probe = row.probeId := by
  have hd : discarded (some row) probe now = false := by
    by_contra hd
    refine hne ?_
    unfold settledRow
    rw [if_pos (by simpa using hd)]
  cases probe with
  | none =>
    simp only [discarded, Option.isSome_none, Bool.false_and, Bool.false_or, Option.isNone_none,
      Bool.true_and, Bool.or_eq_false_iff, decide_eq_false_iff_not] at hd
    rcases hheld with hopen | hprobe
    · exact absurd hopen hd.2
    · rw [hprobe] at hd
      obtain ⟨p, hp⟩ := Option.isSome_iff_exists.1 hprobe
      simp [hp] at hd
  | some p =>
    obtain ⟨r, hr, hp⟩ := probe_of_kept hd
    obtain rfl : row = r := Option.some.inj hr
    exact ⟨rfl, hp.symm⟩

lemma threshold_le_settled (hcap : breaker.failureThreshold ≤ 16)
    (hth : breaker.failureThreshold ≤ row.failures) (hstale : probe = none ∨ probe ≠ row.probeId)
    (hlate : settlement = .success → probe = none → row.openUntil ≤ now → row.probeId = none →
      row.failures < breaker.failureThreshold) :
    ∃ row', settledRow breaker identity (some row) probe now settlement = some row' ∧
      breaker.failureThreshold ≤ row'.failures := by
  by_cases hd : discarded (some row) probe now = true
  · refine ⟨row, ?_, hth⟩
    unfold settledRow
    rw [if_pos hd]
  · obtain rfl : probe = none := by
      rcases hstale with h | h
      · exact h
      · cases probe with
        | none => rfl
        | some p =>
          obtain ⟨r, hr, hp⟩ := probe_of_kept (by simpa using hd)
          obtain rfl : row = r := Option.some.inj hr
          exact absurd hp.symm h
    unfold settledRow
    rw [if_neg hd]
    cases settlement with
    | cancelled => exact ⟨row, rfl, hth⟩
    | success =>
      simp only [discarded, Option.isSome_none, Bool.false_and, Bool.false_or, Option.isNone_none,
        Bool.true_and, Bool.or_eq_true, decide_eq_true_eq, not_or, not_lt] at hd
      have hnone : row.probeId = none := by
        by_contra hne
        obtain ⟨p, hp⟩ := Option.ne_none_iff_exists'.1 hne
        exact hd.1 (by simp [hp])
      exact absurd (hlate rfl rfl hd.2 hnone) (not_lt.2 hth)
    | failure retryAfterMs jitter =>
      exact ⟨_, rfl, threshold_le_nextFailures breaker hcap (by simpa using hth.trans (Nat.le_succ _)) _⟩

theorem safe_of_noLateSuccess (hcap : breaker.failureThreshold ≤ 16) (actions : List Action)
    (hlate : ∀ e ∈ history breaker actions, NoLateSuccess breaker e) :
    Safe breaker (history breaker actions) where
  oneProbe := oneProbe_history actions
  openRefuses e he identity now row ha hrow := by
    have hentry := entry_eq_of_mem he
    rw [ha] at hentry
    rw [hentry]
    exact openRefuses_entry hrow
  onlyTheProbe e he identity other probe now settlement row ha hrow hheld hne := by
    have hentry := entry_eq_of_mem he
    rw [ha] at hentry
    rw [hentry, rowAfter_settle] at hne
    by_cases ho : identity = other
    · subst ho
      rw [if_pos rfl, ← hentry, hrow] at hne
      rw [show health? e.before.table identity = some row from hrow] at hne
      exact ⟨rfl, probe_of_changed hheld hne⟩
    · rw [if_neg ho] at hne
      exact absurd rfl hne
  neverClosed e he identity probe now settlement row ha hrow hth hstale := by
    have hentry := entry_eq_of_mem he
    rw [ha] at hentry
    rw [hentry, rowAfter_settle, if_pos rfl, show health? e.before.table identity = some row from hrow]
    refine threshold_le_settled hcap hth hstale fun hsucc hnone hopen hprobe => ?_
    subst hsucc hnone
    exact hlate e he identity now row ha hrow hopen hprobe
  opens := opens_history hcap actions

/-- A row without a probe has no time of one. -/
def Blank (row : EndpointHealth) : Prop := row.probeId = none → row.probeUntil = 0

variable (breaker) in
lemma blank_settledRow {before : Option EndpointHealth} (hbefore : ∀ r ∈ before, Blank r)
    (h : row ∈ settledRow breaker identity before probe now settlement) : Blank row := by
  unfold settledRow at h
  split at h
  · exact hbefore row h
  · cases settlement with
    | cancelled =>
      dsimp only at h
      split at h
      · obtain ⟨r, -, rfl⟩ := Option.map_eq_some_iff.1 h
        exact fun _ => rfl
      · exact hbefore row h
    | success => cases h
    | failure retryAfterMs jitter =>
      cases h
      exact fun _ => rfl

variable (breaker) in
lemma blank_final (actions : List Action) :
    ∀ identity, ∀ row ∈ health? (final (step breaker) .initial actions).table identity, Blank row := by
  refine (@Runs.invariant _ _ _ (step breaker) (fun w => ∀ identity, ∀ row ∈ health? w.table identity, Blank row)
    (fun w a hw other row hrow => ?_) .initial actions nofun).2
  cases a with
  | admitCall identity now =>
    rcases admit_step breaker w identity now with ⟨_, -, -, h⟩ | ⟨r, hr, -, -, -, h⟩ | ⟨-, h⟩ <;> rw [h] at hrow
    · exact hw other row hrow
    · rw [health?_withProbe, hr] at hrow
      split at hrow
      · cases hrow
        exact nofun
      · exact hw other row hrow
    · exact hw other row hrow
  | settle identity probe now settlement =>
    have hafter := @rowAfter_settle breaker w identity probe now settlement other
    change health? (step breaker w _).2.table other = _ at hafter
    rw [hafter] at hrow
    split at hrow
    · exact blank_settledRow breaker (hw identity) hrow
    · exact hw other row hrow

variable (breaker) in
/-- The report of an endpoint tells what an admission at the same time does, and how long a refused
    one has to wait. -/
structure Foretells (w : World) (identity : String) (now : ℚ) : Prop where
  admission : (step breaker w (.admitCall identity now)).1 =
    if (health breaker identity now w.table).retryAfterMs ≠ 0 then
      .refused (coolingDown (health breaker identity now w.table).retryAfterMs)
    else .admitted (if (health breaker identity now w.table).state = .halfOpen then some w.nextProbe else none)
  available : requireAvailable breaker identity now w.table = .ok () ↔
    ∃ probe, (step breaker w (.admitCall identity now)).1 = .admitted probe

variable (breaker) in
lemma retry_eq (hblank : Blank row) (hrow : health? w.table identity = some row) :
    (health breaker identity now w.table).retryAfterMs =
      if now < row.openUntil ∨ now < row.probeUntil then delayMs row now else 0 := by
  have hdue : max row.openUntil (if row.probeId.isSome then row.probeUntil else 0) = max row.openUntil row.probeUntil := by
    rcases hprobe : row.probeId with _ | probe
    · rw [hblank hprobe, Option.isSome_none, if_neg Bool.false_ne_true]
    · rfl
  simp only [health, hrow, Option.getD_some, hdue, lt_max_iff]
  split
  next hwait =>
    have hpos : 0 ≤ ⌊(max row.openUntil row.probeUntil - now) * 1000⌋ :=
      Int.floor_nonneg.2 (mul_nonneg (sub_nonneg.2 (lt_max_iff.2 hwait).le) (by norm_num))
    rw [delayMs]
    omega
  next => rfl

lemma not_waits {row : EndpointHealth} (hopen : row.openUntil ≤ now) (hprobe : row.probeUntil ≤ now) :
    ¬(now < row.openUntil ∨ now < row.probeUntil) := not_or.2 ⟨hopen.not_gt, hprobe.not_gt⟩

variable (breaker) in
lemma health_closed (hblank : ∀ row ∈ health? w.table identity, Blank row) (hnow : 0 ≤ now)
    (hrow : ∀ row, health? w.table identity = some row →
      row.openUntil ≤ now ∧ row.probeUntil ≤ now ∧ row.failures < breaker.failureThreshold) :
    (health breaker identity now w.table).retryAfterMs = 0 ∧ (health breaker identity now w.table).state = .closed := by
  rcases hfound : health? w.table identity with _ | row
  · have hlt := breaker.atLeastTwo
    simp [health, hfound, hnow.not_gt]
    omega
  · obtain ⟨hopen, hprobe, hth⟩ := hrow row hfound
    refine ⟨(retry_eq breaker (hblank row hfound) hfound).trans (if_neg (not_waits hopen hprobe)), ?_⟩
    simp only [health, hfound, Option.getD_some, hopen.not_gt, hth.not_ge, if_false]

theorem health_foretells (actions : List Action) (identity : String) (now : ℚ) (hnow : 0 ≤ now) :
    Foretells breaker (final (step breaker) .initial actions) identity now := by
  have hblank := blank_final breaker actions identity
  rcases admit_step breaker (final (step breaker) .initial actions) identity now with
    ⟨row, hrow, hwait, h⟩ | ⟨row, hrow, hopen, hprobe, hth, h⟩ | ⟨hrow, h⟩
  · have hretry := @retry_eq breaker row now identity _ (hblank row hrow) hrow
    have hne : delayMs row now ≠ 0 := by
      rw [delayMs]
      omega
    rw [if_pos hwait] at hretry
    exact ⟨by rw [h, hretry, if_pos hne], by simp [requireAvailable, hretry, hne, h]⟩
  · have hretry := @retry_eq breaker row now identity _ (hblank row hrow) hrow
    rw [if_neg (not_waits hopen hprobe)] at hretry
    have hstate : (health breaker identity now (final (step breaker) .initial actions).table).state = .halfOpen := by
      simp only [health, hrow, Option.getD_some, hopen.not_gt, if_false, hth, if_true]
    exact ⟨by simp [h, hretry, hstate], by simp [requireAvailable, hretry, h]⟩
  · obtain ⟨hretry, hstate⟩ := health_closed breaker hblank hnow hrow
    exact ⟨by simp [h, hretry, hstate], by simp [requireAvailable, hretry, h]⟩

def leastJitter : Jitter := ⟨1, le_refl _, by norm_num⟩

def twoFailures : List Action :=
  [.admitCall "e" 1000, .admitCall "e" 1000, .admitCall "e" 1000, .settle "e" none 1000 (.failure none leastJitter),
    .settle "e" none 1000 (.failure none leastJitter)]

theorem health_foretells_open : Foretells ⟨2, le_refl _⟩ (final (step ⟨2, le_refl _⟩) .initial twoFailures) "e" 1010 :=
  health_foretells twoFailures "e" 1010 (by norm_num)

/-- A call that was admitted before the circuit opened closes it. -/
theorem late_success_closes :
    ¬ ∀ (breaker : ProviderCircuitBreaker) (actions : List Action), Safe breaker (history breaker actions) := by
  intro h
  have hsafe := h ⟨2, le_refl _⟩ (twoFailures ++ [.settle "e" none 1031 .success])
  have hrow : health? (final (step ⟨2, le_refl _⟩) .initial twoFailures).table "e" =
      some ⟨"e", 2, 1030, none, 0⟩ := by decide +kernel
  have hmem : entry (step ⟨2, le_refl _⟩) (final (step ⟨2, le_refl _⟩) .initial twoFailures)
      (.settle "e" none 1031 .success) ∈
        history ⟨2, le_refl _⟩ (twoFailures ++ [.settle "e" none 1031 .success]) := by
    rw [history, trace_append]
    exact List.mem_append_right _ (List.mem_singleton_self _)
  obtain ⟨row', hrow', -⟩ := hsafe.neverClosed _ hmem "e" none 1031 .success _ rfl hrow
    (le_refl _) (.inl rfl)
  rw [rowAfter_settle, if_pos rfl, hrow] at hrow'
  cases hrow'

/-- Two failures, the refusal while the circuit is open, a probe and its success. -/
theorem safe_of_noLateSuccess_probe : Safe ⟨2, le_refl _⟩ (history ⟨2, le_refl _⟩
    (twoFailures ++ [.admitCall "e" 1010, .admitCall "e" 1031, .settle "e" (some 0) 1032 .success])) := by
  refine safe_of_noLateSuccess (by decide) _ fun e he => ?_
  simp only [twoFailures, history, List.cons_append, List.nil_append, trace_cons, trace_nil,
    List.mem_cons, List.not_mem_nil, or_false] at he
  rcases he with rfl | rfl | rfl | rfl | rfl | rfl | rfl | rfl <;>
    · rintro identity now row ⟨⟩

end PromptForge.CircuitBreaker
