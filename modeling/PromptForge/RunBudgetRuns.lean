import PromptForge.RunBudgetLaws

namespace PromptForge.RunBudget
open Json Numbers Runs Jobs

abbrev Move := Entry World Call (Except Raised Unit)

def Within (budget : Budget) : Prop := ∀ key, budget.used key ≤ budget.limit key

def Spared (budget : Budget) : Prop := ∀ entry ∈ budget.phaseReserve, budget.used entry.1 ≤ budget.limit entry.1 - entry.2

def Ahead (binding : Binding) (w : World) : Prop :=
  ∀ totals, binding.record w.db = some totals → ∀ key : Key, ∃ n m : ℤ, totals key.dimension = .int n ∧
    w.budget.consumed key = .int m ∧ n ≤ m

def InStep (binding : Binding) (w : World) : Prop :=
  ∀ totals, binding.record w.db = some totals → ∀ key : Key, ∃ n : ℤ, totals key.dimension = .int n ∧
    w.budget.consumed key = .int n

def Settles (binding : Binding) (e : Move) (attemptId : String) (actual : ℕ) : Prop :=
  ∃ request actualOutput now, e.action = .settle request actualOutput true now ∧ actual? actualOutput = some actual ∧
    request.physicalAttemptId = some attemptId ∧ attemptId ≠ "" ∧
    (binding.settle attemptId actualOutput now).isSome ∧ e.outcome = .ok ()

structure Releases (binding : Binding) (e : Move) (attemptId : String) (reserved actual : ℕ) : Prop where
  held : binding.attempt e.before.db attemptId = some (reserved, .unresolved)
  bound : actual ≤ reserved
  record : ∃ totals, binding.record e.before.db = some totals ∧
    binding.record e.after.db = some (returned (reserved - actual) totals)
  inStep : InStep binding e.after
  output : InStep binding e.before →
    e.after.budget.used .outputTokens = e.before.budget.used .outputTokens - (reserved - actual)
  others : InStep binding e.before → ∀ key, key ≠ .outputTokens → e.after.budget.used key = e.before.budget.used key

structure Repeats (binding : Binding) (e : Move) (attemptId : String) (actual : ℕ) : Prop where
  settled : ∃ reserved settledAt, binding.attempt e.before.db attemptId = some (reserved, .completed actual settledAt)
  record : e.after.db = e.before.db
  inStep : InStep binding e.after
  same : InStep binding e.before → e.after = e.before

structure Safe (binding : Binding) (es : List Move) : Prop where
  limits : ∀ e ∈ es, e.after.budget.limits = e.before.budget.limits ∧
    e.after.budget.phaseReserve = e.before.budget.phaseReserve
  within : ∀ e ∈ es, Within e.after.budget
  inStep : ∀ e ∈ es, InStep binding e.before → InStep binding e.after
  spared : ∀ e ∈ es, ∀ request attemptId draw, e.action = .charge request attemptId draw →
    request.phase = some "generation" → e.outcome = .ok () → Spared e.after.budget
  settles : ∀ e ∈ es, ∀ request actualOutput complete now, e.action = .settle request actualOutput complete now →
    (∃ attemptId actual, Settles binding e attemptId actual) ∨ e.after = e.before
  releases : ∀ e ∈ es, ∀ attemptId actual, Settles binding e attemptId actual →
    Repeats binding e attemptId actual ∨ ∃ reserved, Releases binding e attemptId reserved actual
  once : es.Pairwise fun e e' => ∀ attemptId actual actual', Settles binding e attemptId actual →
    Settles binding e' attemptId actual' → e'.after = e'.before
  raises : ∀ e ∈ es, ∀ raised, e.outcome = .error raised → e.after = e.before

lemma mem_keys (key : Key) : key ∈ keys := by
  cases key <;> simp [keys]

lemma checkLimits_ok {budget : Budget} {charge : Key → ℤ} (h : checkLimits budget charge = .ok ()) (key : Key) :
    budget.used key + charge key ≤ budget.limit key := of_require (forM_iff.mp h key (mem_keys key))

lemma checkReserve_ok {budget : Budget} {charge : Key → ℤ}
    (h : checkReserve (some "generation") budget charge = .ok ()) :
    ∀ entry ∈ budget.phaseReserve, budget.used entry.1 + charge entry.1 ≤ budget.limit entry.1 - entry.2 := by
  unfold checkReserve at h
  rw [if_pos rfl] at h
  exact fun entry hentry => of_require (forM_iff.mp h entry hentry)

inductive Spends (binding : Binding) (charge : Key → ℤ) (w : World) : World → Prop where
  | own (db' : Intakes.Db) (h : Unread binding) : Spends binding charge w ⟨w.budget.spend charge, db'⟩
  | stored (db' : Intakes.Db) (old new : Totals) (h : Grown binding charge w.db db' old new) :
      Spends binding charge w ⟨w.budget.adopt new, db'⟩

section Steps
variable {host : Host} {binding : Binding} {w w' : World}

lemma charge_cases (host : Host) (binding : Binding) (request : ProviderRequest) (attemptId : Option String)
    (draw : Draw) (w : World) :
    (∃ raised, chargeAttempt host binding request attemptId draw w = (.error raised, w)) ∨
    ∃ w', chargeAttempt host binding request attemptId draw w = (.ok (), w') ∧
      checkLimits w.budget (chargesOf host request) = .ok () ∧
      checkReserve request.phase w.budget (chargesOf host request) = .ok () ∧
      Spends binding (chargesOf host request) w w' := by
  unfold chargeAttempt
  dsimp only
  rcases hlimits : checkLimits w.budget (chargesOf host request) with raised | ⟨⟩
  · exact .inl ⟨raised, rfl⟩
  rcases hspared : checkReserve request.phase w.budget (chargesOf host request) with raised | ⟨⟩
  · exact .inl ⟨raised, rfl⟩
  dsimp only
  rcases hreserve : binding.reserve (chargeDict (chargesOf host request) (attemptName request attemptId)) draw with _ | reserve
  · have hunread := unread_of_reserve hreserve
    rcases hpersist : binding.persist (fun key => w.budget.used key + chargesOf host request key) draw.now with _ | persist
    · exact .inr ⟨_, rfl, rfl, rfl, .own w.db hunread⟩
    · dsimp only
      rcases hcall : persist w.db with ⟨raised | ⟨⟩, db⟩
      · rw [persist_error hpersist hcall]
        exact .inl ⟨raised, rfl⟩
      · exact .inr ⟨_, rfl, rfl, rfl, .own db hunread⟩
  · dsimp only
    rcases hcall : reserve w.db with ⟨raised | totals, db⟩
    · rw [reserve_error hreserve hcall]
      exact .inl ⟨raised, rfl⟩
    · obtain ⟨old, hgrown⟩ := reserve_ok hreserve hcall
      exact .inr ⟨_, rfl, rfl, rfl, .stored db old totals hgrown⟩

variable {charge : Key → ℤ}

lemma spends_inStep (h : Spends binding charge w w') (hw : Ahead binding w) :
    InStep binding w' ∧ ∀ key, w'.budget.used key ≤ w.budget.used key + charge key := by
  cases h with
  | own db' hunread =>
    constructor
    · intro totals htotals
      rw [(hunread db').1] at htotals
      cases htotals
    · exact fun key => le_refl _
  | stored db' old new hgrown =>
    have hnew (key : Key) : ∃ n m : ℤ, new key.dimension = .int n ∧ w.budget.consumed key = .int m ∧ n ≤ m + charge key := by
      obtain ⟨n, m, hn, hm, hle⟩ := hw old hgrown.before key
      have hnonneg := hgrown.nonneg key
      rcases hgrown.grows with hsame | hgrows
      · refine ⟨n, m, ?_, hm, by omega⟩
        rw [hsame, hn]
      · refine ⟨n + charge key, m, ?_, hm, by omega⟩
        rw [hgrows, hn]
        rfl
    constructor
    · intro totals htotals key
      obtain ⟨totals', htotals', hkeys⟩ := hgrown.after
      obtain rfl := Option.some.inj (htotals.symm.trans htotals')
      obtain ⟨n, m, hn, -, -⟩ := hnew key
      exact ⟨n, (hkeys key).trans hn, hn⟩
    · intro key
      obtain ⟨n, m, hn, hm, hle⟩ := hnew key
      change whole (new key.dimension) ≤ whole (w.budget.consumed key) + charge key
      rw [hn, hm]
      exact hle

lemma spends_limits (h : Spends binding charge w w') :
    w'.budget.limits = w.budget.limits ∧ w'.budget.phaseReserve = w.budget.phaseReserve := by
  cases h <;> exact ⟨rfl, rfl⟩

lemma spends_settled (h : Spends binding charge w w') : KeepsSettled binding w.db w'.db := by
  cases h with
  | own db' hunread =>
    intro attemptId reserved actual settledAt hsettled
    rw [(hunread w.db).2] at hsettled
    cases hsettled
  | stored db' old new hgrown => exact hgrown.settled

lemma limit_congr {budget budget' : Budget} (h : budget'.limits = budget.limits) (key : Key) :
    budget'.limit key = budget.limit key := by
  unfold Budget.limit
  rw [h]

lemma ahead_of_inStep (h : InStep binding w) : Ahead binding w := by
  intro totals htotals key
  obtain ⟨n, hn, hm⟩ := h totals htotals key
  exact ⟨n, n, hn, hm, le_refl n⟩

lemma settle_cases (binding : Binding) (request : ProviderRequest) (actualOutput : Value) (complete : Bool) (now : ℚ)
    (w : World) :
    (∃ raised, settleAttempt binding request actualOutput complete now w = (.error raised, w)) ∨
    (settleAttempt binding request actualOutput complete now w = (.ok (), w) ∧
      ¬ ∃ attemptId actual, complete = true ∧ actual? actualOutput = some actual ∧
        request.physicalAttemptId = some attemptId ∧ attemptId ≠ "" ∧ (binding.settle attemptId actualOutput now).isSome) ∨
    ∃ attemptId actual old new db', complete = true ∧ actual? actualOutput = some actual ∧
      request.physicalAttemptId = some attemptId ∧ attemptId ≠ "" ∧ (binding.settle attemptId actualOutput now).isSome ∧
      settleAttempt binding request actualOutput complete now w = (.ok (), ⟨w.budget.adopt new, db'⟩) ∧
      Shrunk binding attemptId actual w.db db' old new := by
  unfold settleAttempt
  by_cases hskip : complete = false ∨ actual? actualOutput = none
  · rw [if_pos hskip]
    refine .inr (.inl ⟨rfl, ?_⟩)
    rintro ⟨attemptId, actual, hcomplete, hactual, -⟩
    rw [hcomplete, hactual] at hskip
    simp at hskip
  · rw [if_neg hskip]
    obtain ⟨hcomplete, hsome⟩ := not_or.1 hskip
    obtain ⟨actual, hactual⟩ := Option.ne_none_iff_exists'.1 hsome
    rcases hname : request.physicalAttemptId.filter (· != "") with _ | attemptId
    · refine .inr (.inl ⟨rfl, ?_⟩)
      rintro ⟨attemptId, -, -, -, hphysical, hne, -⟩
      rw [hphysical] at hname
      simp [Option.filter, hne] at hname
    · obtain ⟨hphysical, hne⟩ := Option.filter_eq_some_iff.1 hname
      have hne : attemptId ≠ "" := by simpa using hne
      dsimp only
      rcases hsettle : binding.settle attemptId actualOutput now with _ | settle
      · refine .inr (.inl ⟨rfl, ?_⟩)
        rintro ⟨other, -, -, -, hother, -, hsome⟩
        rw [hphysical] at hother
        rw [← Option.some.inj hother, hsettle] at hsome
        cases hsome
      · dsimp only
        rcases hcall : settle w.db with ⟨raised | totals, db⟩
        · rw [settle_error hsettle hcall]
          exact .inl ⟨raised, rfl⟩
        · obtain ⟨old, hshrunk⟩ := settle_ok hactual hsettle hcall
          refine .inr (.inr ⟨attemptId, actual, old, totals, db, ?_, hactual, hphysical, hne, ?_, rfl, hshrunk⟩)
          · simpa using hcomplete
          · rw [hsettle]
            rfl

variable {attemptId : String} {actual : ℕ}

lemma shrunk_inStep {old new : Totals} {db' : Intakes.Db}
    (h : Shrunk binding attemptId actual w.db db' old new) (hw : Ahead binding w) :
    InStep binding ⟨w.budget.adopt new, db'⟩ ∧ ∀ key, (w.budget.adopt new).used key ≤ w.budget.used key := by
  have hnew (key : Key) : ∃ n m : ℤ, new key.dimension = .int n ∧ w.budget.consumed key = .int m ∧ n ≤ m := by
    obtain ⟨n, m, hn, hm, hle⟩ := hw old h.before key
    rcases h.shrinks with ⟨-, rfl⟩ | ⟨reserved, -, hbound, rfl⟩
    · exact ⟨n, m, hn, hm, hle⟩
    · unfold returned
      split
      · refine ⟨n - (reserved - actual), m, ?_, hm, by omega⟩
        rw [hn]
        rfl
      · exact ⟨n, m, hn, hm, hle⟩
  constructor
  · intro totals htotals key
    obtain rfl := Option.some.inj (htotals.symm.trans h.after)
    obtain ⟨n, m, hn, -, -⟩ := hnew key
    exact ⟨n, hn, hn⟩
  · intro key
    obtain ⟨n, m, hn, hm, hle⟩ := hnew key
    change whole (new key.dimension) ≤ whole (w.budget.consumed key)
    rw [hn, hm]
    exact hle

inductive Change (binding : Binding) (w : World) : World → Prop where
  | same : Change binding w w
  | spends (w' : World) (charge : Key → ℤ) (hle : ∀ key, w.budget.used key + charge key ≤ w.budget.limit key)
      (h : Spends binding charge w w') : Change binding w w'
  | shrinks (attemptId : String) (actual : ℕ) (old new : Totals) (db' : Intakes.Db)
      (h : Shrunk binding attemptId actual w.db db' old new) : Change binding w ⟨w.budget.adopt new, db'⟩

lemma change_step (host : Host) (binding : Binding) (w : World) (call : Call) :
    Change binding w (step host binding w call).2 := by
  cases call with
  | charge request attemptId draw =>
    change Change binding w (chargeAttempt host binding request attemptId draw w).2
    rcases charge_cases host binding request attemptId draw w with ⟨raised, h⟩ | ⟨w', h, hlimits, -, hspends⟩
    · rw [h]
      exact .same
    · rw [h]
      exact .spends w' _ (checkLimits_ok hlimits) hspends
  | settle request actualOutput complete now =>
    change Change binding w (settleAttempt binding request actualOutput complete now w).2
    rcases settle_cases binding request actualOutput complete now w with
      ⟨raised, h⟩ | ⟨h, -⟩ | ⟨attemptId, actual, old, new, db', -, -, -, -, -, h, hshrunk⟩
    · rw [h]
      exact .same
    · rw [h]
      exact .same
    · rw [h]
      exact .shrinks attemptId actual old new db' hshrunk

structure Inv (binding : Binding) (w : World) : Prop where
  within : Within w.budget
  ahead : Ahead binding w

lemma inv_change (h : Change binding w w') (hw : Inv binding w) : Inv binding w' := by
  cases h with
  | same => exact hw
  | spends w' charge hle hspends =>
    obtain ⟨hstep, hused⟩ := spends_inStep hspends hw.ahead
    refine ⟨fun key => ?_, ahead_of_inStep hstep⟩
    rw [limit_congr (spends_limits hspends).1]
    exact (hused key).trans (hle key)
  | shrinks attemptId actual old new db' hshrunk =>
    obtain ⟨hstep, hused⟩ := shrunk_inStep hshrunk hw.ahead
    exact ⟨fun key => (hused key).trans (hw.within key), ahead_of_inStep hstep⟩

lemma inStep_change (h : Change binding w w') (hw : InStep binding w) : InStep binding w' := by
  cases h with
  | same => exact hw
  | spends w' charge hle hspends => exact (spends_inStep hspends (ahead_of_inStep hw)).1
  | shrinks attemptId actual old new db' hshrunk => exact (shrunk_inStep hshrunk (ahead_of_inStep hw)).1

lemma limits_change (h : Change binding w w') :
    w'.budget.limits = w.budget.limits ∧ w'.budget.phaseReserve = w.budget.phaseReserve := by
  cases h with
  | same => exact ⟨rfl, rfl⟩
  | spends w' charge hle hspends => exact spends_limits hspends
  | shrinks attemptId actual old new db' hshrunk => exact ⟨rfl, rfl⟩

lemma settled_change (h : Change binding w w') : KeepsSettled binding w.db w'.db := by
  cases h with
  | same => exact keepsSettled_refl _ _
  | spends w' charge hle hspends => exact spends_settled hspends
  | shrinks attemptId actual old new db' hshrunk => exact hshrunk.settled

variable {call : Call}

lemma raises_step {raised : Raised} (h : (step host binding w call).1 = .error raised) :
    (step host binding w call).2 = w := by
  cases call with
  | charge request attemptId draw =>
    change (chargeAttempt host binding request attemptId draw w).1 = _ at h
    change (chargeAttempt host binding request attemptId draw w).2 = w
    rcases charge_cases host binding request attemptId draw w with ⟨raised', hc⟩ | ⟨w', hc, -⟩
    · rw [hc]
    · rw [hc] at h
      cases h
  | settle request actualOutput complete now =>
    change (settleAttempt binding request actualOutput complete now w).1 = _ at h
    change (settleAttempt binding request actualOutput complete now w).2 = w
    rcases settle_cases binding request actualOutput complete now w with
      ⟨raised', hc⟩ | ⟨hc, -⟩ | ⟨attemptId, actual, old, new, db', -, -, -, -, -, hc, -⟩
    · rw [hc]
    · rw [hc]
    · rw [hc] at h
      cases h

lemma spared_step {request : ProviderRequest} {attemptId : Option String} {draw : Draw} (hw : Inv binding w)
    (hphase : request.phase = some "generation") (h : (step host binding w (.charge request attemptId draw)).1 = .ok ()) :
    Spared (step host binding w (.charge request attemptId draw)).2.budget := by
  change (chargeAttempt host binding request attemptId draw w).1 = _ at h
  change Spared (chargeAttempt host binding request attemptId draw w).2.budget
  rcases charge_cases host binding request attemptId draw w with ⟨raised, hc⟩ | ⟨w', hc, -, hreserve, hspends⟩
  · rw [hc] at h
    cases h
  · rw [hc]
    rw [hphase] at hreserve
    obtain ⟨-, hused⟩ := spends_inStep hspends hw.ahead
    obtain ⟨hlimits, hphases⟩ := spends_limits hspends
    intro entry hentry
    change entry ∈ w'.budget.phaseReserve at hentry
    rw [hphases] at hentry
    have hspared := checkReserve_ok hreserve entry hentry
    rw [limit_congr hlimits]
    exact (hused entry.1).trans hspared

lemma settles_step
    (h : Settles binding (entry (step host binding) w call) attemptId actual) :
    ∃ old new db', (step host binding w call).2 = ⟨w.budget.adopt new, db'⟩ ∧
      Shrunk binding attemptId actual w.db db' old new := by
  obtain ⟨request, actualOutput, now, rfl, hactual, hphysical, hne, hsome, hok⟩ := h
  change (settleAttempt binding request actualOutput true now w).1 = _ at hok
  change ∃ old new db', (settleAttempt binding request actualOutput true now w).2 = _ ∧ _
  rcases settle_cases binding request actualOutput true now w with
    ⟨raised, hc⟩ | ⟨-, hno⟩ | ⟨other, actual', old, new, db', -, hactual', hother, -, -, hc, hshrunk⟩
  · rw [hc] at hok
    cases hok
  · exact absurd ⟨attemptId, actual, rfl, hactual, hphysical, hne, hsome⟩ hno
  · obtain rfl := Option.some.inj (hphysical.symm.trans hother)
    obtain rfl := Option.some.inj (hactual.symm.trans hactual')
    rw [hc]
    exact ⟨old, new, db', rfl, hshrunk⟩

lemma adopt_self {old : Totals} (h : InStep binding w) (hold : binding.record w.db = some old) :
    w.budget.adopt old = w.budget := by
  have hconsumed : (fun key : Key => old key.dimension) = w.budget.consumed := by
    funext key
    obtain ⟨n, hn, hm⟩ := h old hold key
    rw [hn, hm]
  unfold Budget.adopt
  rw [hconsumed]

lemma releases_step (hw : Inv binding w)
    (h : Settles binding (entry (step host binding) w call) attemptId actual) :
    Repeats binding (entry (step host binding) w call) attemptId actual ∨
      ∃ reserved, Releases binding (entry (step host binding) w call) attemptId reserved actual := by
  obtain ⟨old, new, db', hafter, hshrunk⟩ := settles_step h
  have hinStep := (shrunk_inStep hshrunk hw.ahead).1
  have hentry : (entry (step host binding) w call).after = ⟨w.budget.adopt new, db'⟩ := hafter
  rcases hshrunk.shrinks with ⟨rfl, rfl⟩ | ⟨reserved, hheld, hbound, rfl⟩
  · left
    constructor
    · exact hshrunk.done
    · rw [hentry]
      rfl
    · rw [hentry]
      exact hinStep
    · intro hstep
      have hstep : InStep binding w := hstep
      rw [hentry, adopt_self hstep hshrunk.before]
      rfl
  · right
    have hcounts (hstep : InStep binding w) := hstep old hshrunk.before
    refine ⟨reserved, hheld, hbound, ⟨old, hshrunk.before, ?_⟩, ?_, fun hstep => ?_, fun hstep key hkey => ?_⟩
    · rw [hentry]
      exact hshrunk.after
    · rw [hentry]
      exact hinStep
    · obtain ⟨n, hn, hm⟩ := hcounts hstep .outputTokens
      rw [hentry]
      change whole ((old .outputTokens).sub (.int (reserved - actual))) = whole (w.budget.consumed .outputTokens) - _
      change old .outputTokens = _ at hn
      rw [hn, hm]
      rfl
    · obtain ⟨n, hn, hm⟩ := hcounts hstep key
      rw [hentry]
      change whole (returned (reserved - actual) old key.dimension) = whole (w.budget.consumed key)
      rw [hm, ← hn]
      cases key with
      | requests => rfl
      | outputTokens => exact absurd rfl hkey
      | inputBytes => rfl

lemma repeats_step (hw : InStep binding w)
    (hdone : ∃ reserved actual' settledAt, binding.attempt w.db attemptId = some (reserved, .completed actual' settledAt))
    (h : Settles binding (entry (step host binding) w call) attemptId actual) :
    (step host binding w call).2 = w := by
  obtain ⟨old, new, db', hafter, hshrunk⟩ := settles_step h
  rcases hshrunk.shrinks with ⟨rfl, rfl⟩ | ⟨reserved, hheld, -⟩
  · rw [hafter, adopt_self hw hshrunk.before]
  · obtain ⟨reserved', actual', settledAt, hsettled⟩ := hdone
    rw [hheld] at hsettled
    cases hsettled

lemma settles_of_action {request : ProviderRequest} {actualOutput : Value} {complete : Bool} {now : ℚ} :
    (∃ attemptId actual, Settles binding (entry (step host binding) w (.settle request actualOutput complete now))
      attemptId actual) ∨ (step host binding w (.settle request actualOutput complete now)).2 = w := by
  have hstep : step host binding w (.settle request actualOutput complete now) =
    settleAttempt binding request actualOutput complete now w := rfl
  rcases settle_cases binding request actualOutput complete now w with
    ⟨raised, hc⟩ | ⟨hc, -⟩ | ⟨attemptId, actual, old, new, db', rfl, hactual, hphysical, hne, hsome, hc, -⟩
  · rw [hstep, hc]
    exact .inr rfl
  · rw [hstep, hc]
    exact .inr rfl
  · refine .inl ⟨attemptId, actual, request, actualOutput, now, rfl, hactual, hphysical, hne, hsome, ?_⟩
    rw [entry_outcome, hstep, hc]

end Steps

section Runs
variable {host : Host} {binding : Binding} {w : World}

lemma inv_step (host : Host) (w : World) (call : Call) (h : Inv binding w) : Inv binding (step host binding w call).2 :=
  inv_change (change_step host binding w call) h

def Left (binding : Binding) (e : Move) (w : World) : Prop :=
  ∀ attemptId actual, Settles binding e attemptId actual → InStep binding w ∧
    ∃ reserved actual' settledAt, binding.attempt w.db attemptId = some (reserved, .completed actual' settledAt)

lemma left_entry {call : Call} (hw : Inv binding w) :
    Left binding (entry (step host binding) w call) (step host binding w call).2 := by
  intro attemptId actual hsettles
  obtain ⟨old, new, db', hafter, hshrunk⟩ := settles_step hsettles
  rw [hafter]
  obtain ⟨reserved, settledAt, hdone⟩ := hshrunk.done
  exact ⟨(shrunk_inStep hshrunk hw.ahead).1, reserved, actual, settledAt, hdone⟩

lemma left_step {e : Move} {call : Call} (h : Left binding e w) : Left binding e (step host binding w call).2 := by
  intro attemptId actual hsettles
  obtain ⟨hinStep, reserved, actual', settledAt, hdone⟩ := h attemptId actual hsettles
  have hchange := change_step host binding w call
  exact ⟨inStep_change hchange hinStep, reserved, actual', settledAt,
    settled_change hchange attemptId reserved actual' settledAt hdone⟩

lemma once_run (hw : Inv binding w) (calls : List Call) :
    (trace (step host binding) w calls).Pairwise fun e e' => ∀ attemptId actual actual',
      Settles binding e attemptId actual → Settles binding e' attemptId actual' → e'.after = e'.before :=
  @pairwise_of _ _ _ (step host binding) (Inv binding) (fun _ => True) (Left binding) _
    (fun w call hw _ => inv_step host w call hw)
    (fun _ _ hw _ => left_entry hw)
    (fun _ _ _ _ _ h => left_step h)
    (fun _ _ _ _ _ h attemptId actual _ he he' => repeats_step (h attemptId actual he).1 (h attemptId actual he).2 he')
    _ _ hw fun _ _ => trivial

/-- A budget that starts within its limits, and counts no less than its store, is safe
    over every run of charges and settlements. -/
theorem budget_safe (host : Host) (binding : Binding) (w : World) (calls : List Call)
    (hwithin : Within w.budget) (hahead : Ahead binding w) : Safe binding (trace (step host binding) w calls) := by
  have hw : Inv binding w := ⟨hwithin, hahead⟩
  have hinv := (@invariant _ _ _ (step host binding) (Inv binding) (inv_step host) w calls hw).1
  have hentry : ∀ e ∈ trace (step host binding) w calls, Inv binding e.before ∧ e = entry (step host binding) e.before e.action :=
    fun e he => ⟨(hinv e he).1, entry_eq_of_mem he⟩
  constructor
  · intro e he
    obtain ⟨-, heq⟩ := hentry e he
    rw [heq]
    exact limits_change (change_step host binding e.before e.action)
  · exact fun e he => (hinv e he).2.within
  · intro e he
    obtain ⟨-, heq⟩ := hentry e he
    rw [heq]
    exact inStep_change (change_step host binding e.before e.action)
  · intro e he request attemptId draw haction hphase hok
    obtain ⟨hbefore, heq⟩ := hentry e he
    rw [haction] at heq
    rw [heq] at hok ⊢
    exact spared_step hbefore hphase hok
  · intro e he request actualOutput complete now haction
    obtain ⟨-, heq⟩ := hentry e he
    rw [haction] at heq
    rw [heq]
    exact settles_of_action
  · intro e he attemptId actual hsettles
    obtain ⟨hbefore, heq⟩ := hentry e he
    rw [heq] at hsettles ⊢
    exact releases_step hbefore hsettles
  · exact once_run hw calls
  · intro e he raised hraised
    obtain ⟨-, heq⟩ := hentry e he
    rw [heq] at hraised ⊢
    exact raises_step hraised

section Reserve
variable {host : Host}

variable (host) in
def chargeOf (key : Key) : Call → ℤ
  | .charge request _ _ => chargesOf host request key
  | .settle .. => 0

variable (host) in
def total (key : Key) (calls : List Call) : ℤ := (calls.map (chargeOf host key)).sum

lemma charge_alone (request : ProviderRequest) (attemptId : Option String) (draw : Draw) (w : World) :
    step host .alone w (.charge request attemptId draw) =
      match checkLimits w.budget (chargesOf host request), checkReserve request.phase w.budget (chargesOf host request) with
      | .ok (), .ok () => (.ok (), { w with budget := w.budget.spend (chargesOf host request) })
      | .error raised, _ | .ok (), .error raised => (.error raised, w) := by
  simp only [step, chargeAttempt, Binding.reserve, Binding.persist]
  rcases checkLimits w.budget (chargesOf host request) with raised | ⟨⟩
  · rfl
  · rcases checkReserve request.phase w.budget (chargesOf host request) with raised | ⟨⟩ <;> rfl

lemma settle_alone (request : ProviderRequest) (actualOutput : Value) (complete : Bool) (now : ℚ) (w : World) :
    step host .alone w (.settle request actualOutput complete now) = (.ok (), w) := by
  simp only [step, settleAttempt, Binding.settle]
  split <;> [rfl; (split <;> rfl)]

lemma spared_generation {budget : Budget} {db : Intakes.Db} (hspared : Spared budget) (generation : List Call)
    (hphase : ∀ request attemptId draw, .charge request attemptId draw ∈ generation → request.phase = some "generation") :
    let w := final (step host .alone) ⟨budget, db⟩ generation
    Spared w.budget ∧ w.budget.limits = budget.limits ∧ w.budget.phaseReserve = budget.phaseReserve := by
  refine (@invariant_of _ _ _ (step host .alone) (fun w => Spared w.budget ∧ w.budget.limits = budget.limits ∧
    w.budget.phaseReserve = budget.phaseReserve) (fun e => e.action ∈ generation) (fun w c hw hc => ?_) ⟨budget, db⟩ generation
    ⟨hspared, rfl, rfl⟩ fun e he => action_mem he).2
  cases c with
  | settle request actualOutput complete now => rwa [settle_alone]
  | charge request attemptId draw =>
    rw [charge_alone, hphase request attemptId draw hc]
    rcases checkLimits w.budget (chargesOf host request) with raised | ⟨⟩
    · exact hw
    · rcases hreserve : checkReserve (some "generation") w.budget (chargesOf host request) with raised | ⟨⟩
      · exact hw
      · exact ⟨checkReserve_ok hreserve, hw.2⟩

lemma charge_nonneg {request : ProviderRequest} (h : 0 ≤ outputCharge request.maxTokens) (key : Key) :
    0 ≤ chargesOf host request key := by
  cases key with
  | requests => exact zero_le_one
  | outputTokens => exact h
  | inputBytes => exact Int.natCast_nonneg _

/-- The calls are charges of another phase, of no negative number of tokens. -/
def Reviews (reviews : List Call) : Prop := ∀ c ∈ reviews, ∃ request attemptId draw, c = .charge request attemptId draw ∧
  request.phase ≠ some "generation" ∧ 0 ≤ outputCharge request.maxTokens

lemma total_nonneg {calls : List Call} (h : Reviews calls) (key : Key) : 0 ≤ total host key calls := by
  refine List.sum_nonneg fun n hn => ?_
  obtain ⟨c, hc, rfl⟩ := List.mem_map.1 hn
  obtain ⟨request, _, _, rfl, -, houtput⟩ := h c hc
  exact charge_nonneg houtput key

lemma accepted_reviews {w : World} {reviews : List Call} (hreviews : Reviews reviews)
    (hroom : ∀ key, w.budget.used key + total host key reviews ≤ w.budget.limit key) :
    ∀ e ∈ trace (step host .alone) w reviews, e.outcome = .ok () := by
  induction reviews generalizing w with
  | nil =>
    intro e he
    cases he
  | cons c rest ih =>
    obtain ⟨⟨request, attemptId, draw, rfl, hphase, -⟩, hrest⟩ := List.forall_mem_cons.1 hreviews
    have htotal (key : Key) : w.budget.used key + (chargesOf host request key + total host key rest) ≤ w.budget.limit key := hroom key
    have hstep : step host .alone w (.charge request attemptId draw) =
        (.ok (), { w with budget := w.budget.spend (chargesOf host request) }) := by
      have hlimits : checkLimits w.budget (chargesOf host request) = .ok () := by
        refine forM_iff.mpr fun key _ => if_pos ?_
        have hle := htotal key
        have hnonneg := @total_nonneg host rest hrest key
        omega
      have hreserve : checkReserve request.phase w.budget (chargesOf host request) = .ok () := if_neg hphase
      rw [charge_alone, hlimits, hreserve]
    rw [trace_cons, hstep]
    refine List.forall_mem_cons.2 ⟨congrArg Prod.fst hstep, ih hrest fun key => ?_⟩
    have hle := htotal key
    rwa [← add_assoc] at hle

/-- What is reserved for the reviews is there for them: whatever was asked for in the generation before,
    no request of two for each review is refused that keeps to the tokens and bytes of a review. -/
theorem reviews_fit (host : Host) (requirementCount reviewCount : ℤ) (w : World) (generation reviews : List Call)
    (hspared : Spared (bindReviewBudget requirementCount reviewCount w.budget))
    (hphase : ∀ request attemptId draw, .charge request attemptId draw ∈ generation → request.phase = some "generation")
    (hreviews : Reviews reviews) (hrequests : total host .requests reviews ≤ 2 * max 1 reviewCount)
    (houtput : total host .outputTokens reviews ≤ 3 * max 1 reviewCount * max 2048 (requirementCount * 200))
    (hinput : total host .inputBytes reviews ≤ 2 * max 1 reviewCount * 128000) :
    ∀ e ∈ trace (step host .alone) (final (step host .alone)
      ⟨bindReviewBudget requirementCount reviewCount w.budget, w.db⟩ generation) reviews, e.outcome = .ok () := by
  obtain ⟨hafter, -, hreserve⟩ := @spared_generation host _ w.db hspared generation hphase
  unfold Spared at hafter
  rw [hreserve] at hafter
  have hfit (key : Key) (reserve : ℤ) (hmem : (key, reserve) ∈ (bindReviewBudget requirementCount reviewCount w.budget).phaseReserve)
      (hle : total host key reviews ≤ reserve) := add_le_of_le_sub_right ((hafter (key, reserve) hmem).trans (sub_le_sub_left hle _))
  refine accepted_reviews hreviews fun key => ?_
  cases key with
  | requests => exact hfit _ _ (.head _) (hrequests.trans (le_max_right _ _))
  | outputTokens => exact hfit _ _ (.tail _ (.head _)) (houtput.trans (le_max_right _ _))
  | inputBytes => exact hfit _ _ (.tail _ (.tail _ (.head _))) hinput

end Reserve

end Runs

def plainHost : Host := ⟨fun _ => "[]"⟩

def plainRequest (phase : String) (maxTokens : ℤ) (attemptId : String) : ProviderRequest where
  phase := some phase
  maxTokens := some maxTokens
  messages := none
  prompt := "Blink the LED"
  systemPrompt := none
  nativeTools := .null
  structuredOutput := .null
  physicalAttemptId := some attemptId

def jobDb : Intakes.Db :=
  ⟨[], ((create "job" "project" "session" "/workspace" "run" false "standard" 0 .initial).toOption.map Prod.snd).getD .initial⟩

def intakeDb : Intakes.Db := ⟨[Intakes.newIntake "1" "session" "project" "" defaultLimits 0], .initial⟩

def freshBudget : Budget := bindJobBudget (fun _ => .int 0) defaultLimits

lemma within_freshBudget : Within freshBudget := by
  intro key
  cases key <;> decide

theorem budget_safe_job : Safe (.job "job" "run") (trace (step plainHost (.job "job" "run")) ⟨freshBudget, jobDb⟩
    [.charge (plainRequest "generation" 1024 "a") none ⟨"", 1⟩, .settle (plainRequest "generation" 1024 "a") (.int 100) true 2]) :=
  budget_safe plainHost _ _ _ within_freshBudget fun totals h key => by
    obtain rfl : (fun _ => Number.int 0) = totals := Option.some.inj h
    exact ⟨0, 0, rfl, by cases key <;> rfl, le_refl 0⟩

theorem reviews_fit_one : Spared (bindReviewBudget 3 1 freshBudget) ∧
    ∀ e ∈ trace (step plainHost .alone) (final (step plainHost .alone)
      ⟨bindReviewBudget 3 1 freshBudget, jobDb⟩ [.charge (plainRequest "generation" 4096 "a") none ⟨"", 1⟩])
      [.charge (plainRequest "review" 2048 "b") none ⟨"", 2⟩, .charge (plainRequest "review" 4096 "c") none ⟨"", 3⟩], e.outcome = .ok () := by
  have hspared : Spared (bindReviewBudget 3 1 freshBudget) := by
    unfold Spared
    decide
  exact ⟨hspared, reviews_fit plainHost 3 1 ⟨freshBudget, jobDb⟩ _ _ hspared
    (fun _ _ _ h => by cases List.mem_singleton.1 h; rfl)
    (by simp [Reviews, plainRequest, outputCharge]) (by decide) (by decide) (by decide +kernel)⟩

/-- A request of an intake takes tokens of the reserve. -/
theorem reserve_drawn : ¬ ∀ (host : Host) (binding : Binding) (w : World) (calls : List Call), Within w.budget →
    InStep binding w → Spared w.budget → ∀ e ∈ trace (step host binding) w calls, ∀ request attemptId draw,
      e.action = .charge request attemptId draw → request.phase ≠ some "review" → Spared e.after.budget := by
  intro h
  have hstep : InStep (.intake "intake-1") ⟨freshBudget, intakeDb⟩ := by
    intro totals htotals key
    obtain rfl : (fun _ => Number.int 0) = totals := Option.some.inj htotals
    exact ⟨0, rfl, by cases key <;> rfl⟩
  have hspared : Spared freshBudget := by
    unfold Spared
    decide
  have hdrawn := h plainHost (.intake "intake-1") ⟨freshBudget, intakeDb⟩
    [.charge (plainRequest "intake" 245000 "a") none ⟨"", 1⟩] within_freshBudget hstep hspared _
    (List.mem_singleton_self _) _ _ _ rfl (by decide) (.outputTokens, 2048) (by decide)
  revert hdrawn
  decide +kernel

end PromptForge.RunBudget
