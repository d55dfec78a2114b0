import PromptForge.ToolPipeline

namespace PromptForge.ToolPipeline
open Runs JsValues

variable {p : Setting} {s : State}

def Silent (s : State) : Prop := s.handed = [] ∧ s.ran = false ∧ s.settled = false

def Open (s : State) : Prop := s.settled = false ∧ s.handed ≠ [] ∧ ∀ e ∈ s.handed, e.type ≠ resultType

def Closed (r : ToolResult) (s : State) : Prop :=
  s.settled = true ∧ ∃ before, s.handed = before ++ [⟨resultType, r.payload⟩] ∧ ∀ e ∈ before, e.type ≠ resultType

def Allowed (p : Setting) : Prop := ∀ guard ∈ p.guards, ¬ Denies guard p.call

def Stage (p : Setting) (s : State) : Phase → Prop
  | .guarding rest => Silent s ∧ ∃ seen, p.guards = seen ++ rest ∧ ∀ guard ∈ seen, ¬ Denies guard p.call
  | .starting => Open s ∧ s.ran = false ∧ Allowed p
  | .racing _ => Open s
  | .reporting r | .failing r => Closed r s
  | .returned r => Silent s ∨ Closed r s
  | .raised => Silent s ∨ ∃ r, Closed r s

structure Inv (p : Setting) (s : State) : Prop where
  allowed : s.ran = true → Allowed p
  stage : Stage p s s.phase

lemma results_of_open (h : Open s) : results s = [] := by
  simpa [results] using h.2.2

lemma results_of_closed {r : ToolResult} (h : Closed r s) : results s = [⟨resultType, r.payload⟩] := by
  obtain ⟨-, before, hhanded, hbefore⟩ := h
  unfold results
  rw [hhanded, List.filter_append, List.filter_eq_nil_iff.mpr (by simpa using hbefore)]
  rfl

lemma results_of_silent (h : Silent s) : results s = [] := by
  unfold results
  rw [h.1]
  rfl

lemma last_of_closed {r : ToolResult} (h : Closed r s) {before after : List Event} {e : Event}
    (hhanded : s.handed = before ++ e :: after) (he : e.type = resultType) : after = [] := by
  obtain ⟨-, front, hfront, hnone⟩ := h
  rcases List.eq_nil_or_concat after with rfl | ⟨rest, final, rfl⟩
  · rfl
  · have heq : front ++ [⟨resultType, r.payload⟩] = (before ++ e :: rest) ++ [final] := by
      rw [← hfront, hhanded]
      simp
    obtain ⟨hsame, -⟩ := List.append_inj' heq rfl
    exact absurd he (hnone e (by simp [hsame]))

lemma last_of_none (h : ∀ e ∈ s.handed, e.type ≠ resultType) {before after : List Event} {e : Event}
    (hhanded : s.handed = before ++ e :: after) (he : e.type = resultType) : after = [] :=
  absurd he (h e (by simp [hhanded]))

lemma Inv.cases (h : Inv p s) : Silent s ∨ (Open s ∧ isOver s.phase = false) ∨ ∃ r, Closed r s := by
  have hstage := h.stage
  cases hphase : s.phase <;> simp only [hphase, Stage] at hstage
  case guarding rest => exact .inl hstage.1
  case starting => exact .inr (.inl ⟨hstage.1, rfl⟩)
  case racing raced => exact .inr (.inl ⟨hstage, rfl⟩)
  case reporting r => exact .inr (.inr ⟨r, hstage⟩)
  case failing r => exact .inr (.inr ⟨r, hstage⟩)
  case returned r => exact hstage.imp_right fun closed => .inr ⟨r, closed⟩
  case raised => exact hstage.imp_right .inr

lemma Inv.settledOnce (h : Inv p s) : SettledOnce p s where
  guarded := by
    intro guard hguard hdenies
    by_contra hran
    exact h.allowed (by simpa using hran) guard hguard hdenies
  once := by
    rcases h.cases with hs | ⟨hs, -⟩ | ⟨r, hs⟩
    · simp [results_of_silent hs]
    · simp [results_of_open hs]
    · simp [results_of_closed hs]
  last := by
    intro before e after hhanded he
    rcases h.cases with hs | ⟨hs, -⟩ | ⟨r, hs⟩
    · exact last_of_none (by simp [hs.1]) hhanded he
    · exact last_of_none hs.2.2 hhanded he
    · exact last_of_closed hs hhanded he
  ended := by
    intro hover hstarted
    rcases h.cases with hs | ⟨-, hs⟩ | ⟨r, hs⟩
    · exact absurd hs.1 hstarted
    · simp [hover] at hs
    · simp [results_of_closed hs]
  agrees := by
    intro r hphase hstarted
    have hstage := h.stage
    rw [hphase] at hstage
    exact results_of_closed (hstage.resolve_left fun hs => hstarted hs.1)

lemma inv_start (now : String) : Inv p (start p now) := by
  unfold start
  cases p.definition with
  | none => exact ⟨nofun, .inl ⟨rfl, rfl, rfl⟩⟩
  | some definition => exact ⟨nofun, ⟨rfl, rfl, rfl⟩, [], rfl, by simp⟩

lemma closed_settle (h : Open s) (phase : ToolResult → Phase) (r : ToolResult) : Closed r (settle s phase r) :=
  ⟨rfl, s.handed, rfl, h.2.2⟩

lemma inv_fail (h : Open s) (hallowed : s.ran = true → Allowed p) (error : Thrown) (now : String) :
    Inv p (fail p s error now) :=
  ⟨hallowed, closed_settle h .failing _⟩

lemma inv_resume (h : Open s) (hallowed : s.ran = true → Allowed p) (now : String) (raced : Raced) :
    Inv p (resume p s now raced) := by
  cases raced with
  | thrown error => exact inv_fail h hallowed error now
  | returned value =>
    simp only [resume]
    cases finalized p value with
    | error error => exact inv_fail h hallowed error now
    | ok content => exact ⟨hallowed, closed_settle h .reporting _⟩

lemma not_denies_none {guard : Guard} (h : guard p.call = .ok none) : ¬ Denies guard p.call := by
  rintro ⟨message, hmessage, -⟩
  simp [h] at hmessage

lemma not_denies_empty {guard : Guard} (h : guard p.call = .ok (some "")) : ¬ Denies guard p.call := by
  rintro ⟨message, hmessage, hne⟩
  simp only [h, Except.ok.injEq, Option.some.injEq] at hmessage
  exact hne hmessage.symm

lemma stage_guarding {seen rest : List Guard} {guard : Guard} (hs : Silent s) (hguards : p.guards = seen ++ guard :: rest)
    (hseen : ∀ g ∈ seen, ¬ Denies g p.call) (hguard : ¬ Denies guard p.call) : Stage p s (.guarding rest) := by
  refine ⟨hs, seen ++ [guard], by simp [hguards], fun g hg => ?_⟩
  rcases List.mem_append.mp hg with hg | hg
  · exact hseen g hg
  · exact List.mem_singleton.mp hg ▸ hguard

lemma inv_askGuard {rest : List Guard} (h : Stage p s (.guarding rest)) (now : String) : Inv p (askGuard p s now rest) := by
  obtain ⟨hs, seen, hguards, hseen⟩ := h
  have hran : s.ran = true → Allowed p := fun htrue => by simp [hs.2.1] at htrue
  cases rest with
  | nil =>
    have hallowed : Allowed p := by simpa [Allowed, hguards] using hseen
    refine ⟨hran, ⟨hs.2.2, by simp [askGuard, hand], ?_⟩, hs.2.1, hallowed⟩
    simp [askGuard, hand, hs.1, startedType, resultType]
  | cons guard rest =>
    simp only [askGuard]
    cases hanswer : guard p.call with
    | error error => exact ⟨hran, .inl hs⟩
    | ok denial =>
      cases denial with
      | none => exact ⟨hran, stage_guarding hs hguards hseen (not_denies_none hanswer)⟩
      | some denial =>
        by_cases hempty : denial = ""
        · subst hempty
          exact ⟨hran, stage_guarding hs hguards hseen (not_denies_empty hanswer)⟩
        · simp only [if_neg hempty]
          exact ⟨hran, .inl hs⟩

lemma stage_emits {type : String} {payload : Value} (h : Inv p s) (hran : s.ran = true) (hsettled : s.settled = false)
    (htype : type ≠ resultType) : Stage p (hand s type payload) s.phase := by
  have hstage := h.stage
  have hsilent : ¬ Silent s := fun hs => by simp [hs.2.1] at hran
  have hclosed : ∀ r, ¬ Closed r s := fun r hs => by simp [hs.1] at hsettled
  have hopen : Open s → Open (hand s type payload) := fun hs =>
    ⟨hsettled, by simp [hand], by simpa [hand, htype, or_imp, forall_and] using hs.2.2⟩
  cases hphase : s.phase <;> simp only [hphase, Stage] at hstage ⊢
  case guarding rest => exact absurd hstage.1 hsilent
  case starting => simp [hstage.2.1] at hran
  case racing raced => exact hopen hstage
  case reporting r => exact absurd hstage (hclosed r)
  case failing r => exact absurd hstage (hclosed r)
  case returned r => exact absurd hstage (not_or.mpr ⟨hsilent, hclosed r⟩)
  case raised => exact absurd hstage (not_or.mpr ⟨hsilent, not_exists.mpr hclosed⟩)

lemma inv_racing (h : Inv p s) {raced : Option Raced} (hphase : s.phase = .racing raced) (later : Raced) :
    Inv p { s with phase := .racing (some later) } := by
  have hstage := h.stage
  rw [hphase] at hstage
  exact ⟨h.allowed, hstage⟩

lemma inv_next (h : Inv p s) (a : Action) (hclean : Clean (entry (step p) s a)) : Inv p (next p s a) := by
  have hstage := h.stage
  cases a with
  | guard now =>
    simp only [next]
    cases hphase : s.phase <;> simp only [hphase, Stage] at hstage ⊢ <;> try exact h
    exact inv_askGuard hstage now
  | started answer now =>
    simp only [next]
    cases hphase : s.phase <;> simp only [hphase, Stage] at hstage ⊢ <;> try exact h
    cases answer with
    | none => exact ⟨fun _ => hstage.2.2, hstage.1⟩
    | some error => exact inv_fail hstage.1 h.allowed error now
  | returns value =>
    simp only [next]
    split
    next hphase => exact inv_racing h hphase (.returned value)
    next => exact h
  | throws error =>
    simp only [next]
    split
    next hphase => exact inv_racing h hphase (.thrown error)
    next => exact h
  | timesOut =>
    simp only [next]
    split
    next hphase =>
      split
      · exact inv_racing h hphase (.thrown .timeout)
      · exact h
    next => exact h
  | deadline =>
    simp only [next]
    split
    · exact ⟨h.allowed, hstage⟩
    · exact h
  | emits type payload =>
    simp only [next]
    by_cases hlive : (s.ran && !s.settled) = true
    · obtain ⟨hran, hsettled⟩ : s.ran = true ∧ s.settled = false := by simpa using hlive
      have htype : type ≠ resultType := fun same => by
        have hquiet := hclean same
        simp [hran, hsettled] at hquiet
      rw [if_pos hlive]
      exact ⟨h.allowed, stage_emits h hran hsettled htype⟩
    · rw [if_neg hlive]
      exact h
  | resumes now =>
    simp only [next]
    cases hphase : s.phase <;> simp only [hphase, Stage] at hstage ⊢ <;> try exact h
    rename_i raced
    cases raced with
    | none => exact h
    | some raced => exact inv_resume hstage h.allowed now raced
  | reported answer now =>
    simp only [next]
    cases hphase : s.phase <;> simp only [hphase, Stage] at hstage ⊢ <;> try exact h
    cases answer with
    | none => exact ⟨h.allowed, .inr hstage⟩
    | some error => exact absurd hphase (hclean _)
  | failed answer =>
    simp only [next]
    cases hphase : s.phase <;> simp only [hphase, Stage] at hstage ⊢ <;> try exact h
    cases answer with
    | none => exact ⟨h.allowed, .inr hstage⟩
    | some error => exact ⟨h.allowed, .inr ⟨_, hstage⟩⟩

def echo : Setting where
  call := ⟨"call-1", "read", .obj [], "s", "r"⟩
  definition := some ⟨.ok⟩
  guards := [fun _ => .ok none]
  startedAt := "t0"
  clone := .ok

def lateTool : List Action :=
  [.guard "t1", .guard "t2", .started none "t3", .emits "tool/progress" .null, .deadline, .timesOut, .resumes "t4",
    .emits "tool/progress" .null, .failed none]

def rejectedResult : List Action :=
  [.guard "t1", .guard "t2", .started none "t3", .returns .null, .resumes "t4", .reported (some (.error "writer locked")) "t5",
    .failed none]

end PromptForge.ToolPipeline
