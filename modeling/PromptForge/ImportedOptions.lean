import PromptForge.BuildPolicyLaws

/-!
# Options of an imported project

When a project is imported its `platformio.ini` is read by a resolver of its own, which takes
the values as they are written and asks the first parent first.
-/
namespace PromptForge.ImportedOptions
open Runs BuildPolicy

local instance lawfulText : LawfulBEq Text := inferInstance

/-- The names that `extends` lists, without `env:`, of the environments that there are. -/
def parentNames (ini : Ini) (environment : Text) : List Text :=
  ((((((ini.get (envPrefix ++ environment) extends').getD []).splitOnP fun c => Texts.isSpace c || c == ',').map Texts.stripChars).filter
    (· ≠ [])).map fun parent => if envPrefix <+: parent then parent.drop 4 else parent).filter fun parent =>
      ini.hasSection (envPrefix ++ parent)

/-- `_resolve_option`, so many levels deep. -/
def importResolve (ini : Ini) : ℕ → List Text → Text → Text → Except Unresolved Text
  | 0, _, _, _ => .error .cyclic
  | depth + 1, visited, environment, option =>
    if envPrefix ++ environment ∈ visited then .ok []
    else
      match ini.get (envPrefix ++ environment) option with
      | some value => .ok (Texts.stripChars value)
      | none => do
        let value ← firstValue (fun parent => importResolve ini depth ((envPrefix ++ environment) :: visited) parent option)
          (parentNames ini environment)
        if value ≠ [] then return value else return Texts.stripChars ((ini.get env option).getD [])

def importOption (ini : Ini) (environment option : Text) : Except Unresolved Text :=
  importResolve ini (ini.sections.length + 1) [] environment option

def Literal (text : Text) : Prop := pieces none text = literal text

def SameMeaning (ini : Ini) (getenv : Text → Text) (environment option : Text) : Prop :=
  ∃ value, resolveOption ini getenv environment option = .ok value ∧ importOption ini environment option = .ok value

/-- What `[env]` has for an option, if it inherits nothing. -/
def Default (ini : Ini) (option value : Text) : ℕ → Prop
  | 0 => ini.hasSection env = false ∧ value = []
  | _ + 1 =>
    match ini.get env option with
    | some raw => value = Texts.stripChars raw ∧ Literal value
    | none => value = [] ∧ parents ini env = []

/-- An environment has the value whichever of its parents is asked first. -/
def Settled (ini : Ini) (option : Text) : ℕ → Text → Text → Prop
  | 0, _, _ => False
  | depth + 1, environment, value =>
    match ini.get (envPrefix ++ environment) option with
    | some raw => value = Texts.stripChars raw ∧ Literal value
    | none => ini.hasSection (envPrefix ++ environment) = true ∧
        (∀ section', section' ∈ parents ini (envPrefix ++ environment) ↔ ∃ parent ∈ parentNames ini environment, section' = envPrefix ++ parent) ∧
        ((value ≠ [] ∧ (∃ parent ∈ parentNames ini environment, Settled ini option depth parent value) ∧
            ∀ parent ∈ parentNames ini environment, Settled ini option depth parent value ∨ Settled ini option depth parent []) ∨
          (∀ parent ∈ parentNames ini environment, Settled ini option depth parent []) ∧ Default ini option value depth)

def Agreed (ini : Ini) (environment option : Text) : Prop := ∃ depth ≤ 33, ∃ value, Settled ini option depth environment value

variable {ini : Ini} {getenv : Text → Text} {option environment value : Text} {depth : ℕ}

lemma firstValue_mono {f g : Text → Except Unresolved Text} {parents : List Text} (h : ∀ parent v, f parent = .ok v → g parent = .ok v)
    (hf : firstValue f parents = .ok value) : firstValue g parents = .ok value := by
  induction parents with
  | nil => exact hf
  | cons parent parents ih =>
    obtain ⟨v, hv, hrest⟩ := ok_of_bind hf
    simp only [firstValue, h parent v hv]
    change (if v ≠ [] then Except.ok v else firstValue g parents) = .ok value
    split at hrest
    · rwa [if_pos ‹_›]
    · rw [if_neg ‹_›]
      exact ih hrest

lemma importResolve_succ {visited : List Text} (h : importResolve ini depth visited environment option = .ok value) :
    importResolve ini (depth + 1) visited environment option = .ok value := by
  induction depth generalizing visited environment value with
  | zero => cases h
  | succ depth ih =>
    rw [importResolve] at h ⊢
    split at h
    · rwa [if_pos ‹_›]
    · rw [if_neg ‹_›]
      cases hget : ini.get (envPrefix ++ environment) option with
      | some raw => simpa only [hget] using h
      | none =>
        simp only [hget] at h ⊢
        obtain ⟨v, hv, hrest⟩ := ok_of_bind h
        rw [firstValue_mono (fun parent w hw => ih hw) hv]
        exact hrest

lemma importResolve_le {visited : List Text} {depth' : ℕ} (hle : depth ≤ depth')
    (h : importResolve ini depth visited environment option = .ok value) : importResolve ini depth' visited environment option = .ok value := by
  induction hle with
  | refl => exact h
  | step _ ih => exact importResolve_succ ih

lemma firstValue_total {f : Text → Except Unresolved Text} {parents : List Text} (h : ∀ parent ∈ parents, ∃ v, f parent = .ok v) :
    ∃ v, firstValue f parents = .ok v := by
  induction parents with
  | nil => exact ⟨[], rfl⟩
  | cons parent parents ih =>
    obtain ⟨v, hv⟩ := h parent (List.mem_cons_self ..)
    obtain ⟨w, hw⟩ := ih fun q hq => h q (List.mem_cons_of_mem _ hq)
    simp only [firstValue, hv]
    change ∃ u, (if v ≠ [] then Except.ok v else firstValue f parents) = .ok u
    split
    · exact ⟨v, rfl⟩
    · exact ⟨w, hw⟩

def unseen (ini : Ini) (visited : List Text) : ℕ := ini.sections.countP fun row => decide (row.1 ∉ visited)

lemma unseen_lt {visited : List Text} {section' : Text} (hsection : ini.hasSection section' = true) (hnew : section' ∉ visited) :
    unseen ini (section' :: visited) < unseen ini visited := by
  obtain ⟨own, hown⟩ := Option.isSome_iff_exists.mp hsection
  have hmem : (section', own) ∈ ini.sections := by
    obtain ⟨before, after, hsections, _⟩ := List.lookup_eq_some_iff.mp hown
    simp [hsections]
  unfold unseen
  generalize ini.sections = rows at hmem
  induction rows with
  | nil => cases hmem
  | cons row rows ih =>
    have hle : rows.countP (fun row => decide (row.1 ∉ section' :: visited)) ≤ rows.countP fun row => decide (row.1 ∉ visited) := by
      refine List.countP_mono_left fun r _ hr => ?_
      simp only [decide_eq_true_eq, List.mem_cons, not_or] at hr ⊢
      exact hr.2
    rw [List.countP_cons, List.countP_cons]
    by_cases hsame : row.1 = section'
    · have hseen : decide (row.1 ∉ section' :: visited) = false := by simp [hsame]
      have hunseen : decide (row.1 ∉ visited) = true := by simp [hsame, hnew]
      rw [hseen, hunseen, if_neg (by decide), if_pos rfl]
      omega
    · have hother : decide (row.1 ∉ section' :: visited) = decide (row.1 ∉ visited) := by simp [hsame]
      have hless : rows.countP (fun row => decide (row.1 ∉ section' :: visited)) < rows.countP fun row => decide (row.1 ∉ visited) := by
        cases List.mem_cons.mp hmem with
        | inl hfirst => exact absurd (congrArg Prod.fst hfirst).symm hsame
        | inr hrest => exact ih hrest
      rw [hother]
      omega

lemma hasSection_of_get {section' key raw : Text} (h : ini.get section' key = some raw) : ini.hasSection section' = true := by
  obtain ⟨own, hown, -⟩ := Option.bind_eq_some_iff.mp h
  exact Option.isSome_iff_exists.mpr ⟨own, hown⟩

lemma get_eq_none {section' key : Text} (h : ini.hasSection section' = false) : ini.get section' key = none := by
  cases hget : ini.get section' key with
  | none => rfl
  | some raw =>
    rw [hasSection_of_get hget] at h
    cases h

lemma parentNames_nil (h : ini.hasSection (envPrefix ++ environment) = false) : parentNames ini environment = [] := by
  simp [parentNames, get_eq_none h, List.splitOnP_nil, Texts.stripChars]

lemma importResolve_total {visited : List Text} (h : unseen ini visited < depth) :
    ∃ value, importResolve ini depth visited environment option = .ok value := by
  induction depth generalizing visited environment with
  | zero => omega
  | succ depth ih =>
    rw [importResolve]
    split
    · exact ⟨[], rfl⟩
    · rename_i hnew
      cases hget : ini.get (envPrefix ++ environment) option with
      | some raw => exact ⟨_, rfl⟩
      | none =>
        have hparents : ∃ v, firstValue (fun parent => importResolve ini depth ((envPrefix ++ environment) :: visited) parent option)
            (parentNames ini environment) = .ok v := by
          by_cases hsection : ini.hasSection (envPrefix ++ environment) = true
          · have hless := unseen_lt hsection hnew
            exact firstValue_total fun parent _ => ih (by omega)
          · rw [parentNames_nil (by simpa using hsection)]
            exact ⟨[], rfl⟩
        obtain ⟨v, hv⟩ := hparents
        simp only [hv]
        change ∃ u, (if v ≠ [] then Except.ok v else Except.ok (Texts.stripChars ((ini.get env option).getD []))) = .ok u
        split <;> exact ⟨_, rfl⟩

lemma importOption_total (ini : Ini) (environment option : Text) : ∃ value, importOption ini environment option = .ok value := by
  refine importResolve_total ?_
  have hle : unseen ini [] ≤ ini.sections.length := List.countP_le_length
  omega

def Asks (ini : Ini) (option environment parent : Text) : Prop :=
  ini.get (envPrefix ++ environment) option = none ∧ parent ∈ parentNames ini environment

variable (h : Settled ini option depth environment value)

include h in
lemma settled_asks {parent : Text} (hasks : Asks ini option environment parent) :
    ∃ depth' < depth, ∃ value', Settled ini option depth' parent value' := by
  cases depth with
  | zero => exact h.elim
  | succ depth =>
    rw [Settled, hasks.1] at h
    obtain ⟨-, -, ⟨-, -, hall⟩ | ⟨hall, -⟩⟩ := h
    · rcases hall parent hasks.2 with h | h
      · exact ⟨depth, Nat.lt_succ_self _, value, h⟩
      · exact ⟨depth, Nat.lt_succ_self _, [], h⟩
    · exact ⟨depth, Nat.lt_succ_self _, [], hall parent hasks.2⟩

include h in
lemma settled_below {parent : Text}
    (hbelow : Relation.TransGen (Asks ini option) environment parent) : ∃ depth' < depth, ∃ value', Settled ini option depth' parent value' := by
  induction hbelow with
  | single hasks => exact settled_asks h hasks
  | tail _ hasks ih =>
    obtain ⟨depth', hlt, value', hsettled⟩ := ih
    obtain ⟨depth'', hlt', hrest⟩ := settled_asks hsettled hasks
    exact ⟨depth'', Nat.lt_trans hlt' hlt, hrest⟩

include h in
lemma settled_acyclic : ¬ Relation.TransGen (Asks ini option) environment environment := by
  intro hcycle
  induction depth using Nat.strong_induction_on generalizing value with
  | _ depth ih =>
    obtain ⟨depth', hlt, value', hsettled⟩ := settled_below h hcycle
    exact ih depth' hlt hsettled

lemma default_cases (h : Default ini option value depth) :
    (ini.hasSection env = false ∧ value = []) ∨
      (0 < depth ∧ ((∃ raw, ini.get env option = some raw ∧ value = Texts.stripChars raw ∧ Literal value) ∨
        (ini.get env option = none ∧ value = [] ∧ parents ini env = []))) := by
  cases depth with
  | zero => exact .inl h
  | succ depth =>
    right
    rw [Default] at h
    cases hget : ini.get env option with
    | some raw =>
      simp only [hget] at h
      exact ⟨Nat.succ_pos depth, .inl ⟨raw, rfl, h⟩⟩
    | none =>
      simp only [hget] at h
      exact ⟨Nat.succ_pos depth, .inr ⟨rfl, h⟩⟩

lemma default_literal (h : Default ini option value depth) : Literal value := by
  obtain ⟨-, rfl⟩ | ⟨-, ⟨raw, -, -, hliteral⟩ | ⟨-, rfl, -⟩⟩ := default_cases h
  · rfl
  · exact hliteral
  · rfl

include h in
lemma settled_literal : Literal value := by
  induction depth generalizing environment value with
  | zero => exact h.elim
  | succ depth ih =>
    rw [Settled] at h
    split at h
    · exact h.2
    · obtain ⟨-, -, ⟨-, ⟨parent, -, hparent⟩, -⟩ | ⟨-, hdefault⟩⟩ := h
      · exact ih hparent
      · exact default_literal hdefault

lemma firstValue_some {f : Text → Except Unresolved Text} {parents : List Text} (hne : value ≠ [])
    (hsome : ∃ parent ∈ parents, f parent = .ok value) (hall : ∀ parent ∈ parents, f parent = .ok value ∨ f parent = .ok []) :
    firstValue f parents = .ok value := by
  induction parents with
  | nil =>
    obtain ⟨parent, hparent, -⟩ := hsome
    cases hparent
  | cons parent parents ih =>
    rcases hall parent (List.mem_cons_self ..) with hv | hv
    · simp only [firstValue, hv]
      change (if value ≠ [] then Except.ok value else firstValue f parents) = .ok value
      rw [if_pos hne]
    · simp only [firstValue, hv]
      change firstValue f parents = .ok value
      refine ih ?_ fun q hq => hall q (List.mem_cons_of_mem _ hq)
      obtain ⟨q, hq, hfq⟩ := hsome
      rcases List.mem_cons.mp hq with rfl | hq
      · rw [hv] at hfq
        exact absurd (Except.ok.inj hfq).symm hne
      · exact ⟨q, hq, hfq⟩

lemma firstValue_nil {f : Text → Except Unresolved Text} {parents : List Text} (hall : ∀ parent ∈ parents, f parent = .ok []) :
    firstValue f parents = .ok [] := by
  induction parents with
  | nil => rfl
  | cons parent parents ih =>
    simp only [firstValue, hall parent (List.mem_cons_self ..)]
    exact ih fun q hq => hall q (List.mem_cons_of_mem _ hq)

lemma default_raw (h : Default ini option value depth) : Texts.stripChars ((ini.get env option).getD []) = value := by
  obtain ⟨hnone, rfl⟩ | ⟨-, ⟨raw, hget, rfl, -⟩ | ⟨hget, rfl, -⟩⟩ := default_cases h
  · rw [get_eq_none hnone]
    rfl
  · rw [hget]
    rfl
  · rw [hget]
    rfl

include h in
lemma importResolve_settled {visited : List Text} {enough : ℕ} (hle : depth ≤ enough)
    (hvisited : ∀ section' ∈ visited, ∃ child, section' = envPrefix ++ child ∧ Relation.TransGen (Asks ini option) child environment) :
    importResolve ini enough visited environment option = .ok value := by
  induction enough generalizing depth visited environment value with
  | zero =>
    rw [Nat.le_zero.mp hle] at h
    exact h.elim
  | succ enough ih =>
    cases depth with
    | zero => exact h.elim
    | succ depth =>
      have hnew : envPrefix ++ environment ∉ visited := by
        intro hmem
        obtain ⟨child, hsame, hbelow⟩ := hvisited _ hmem
        rw [← List.append_cancel_left hsame] at hbelow
        exact settled_acyclic h hbelow
      rw [importResolve, if_neg hnew]
      rw [Settled] at h
      cases hget : ini.get (envPrefix ++ environment) option with
      | some raw =>
        simp only [hget] at h ⊢
        rw [h.1]
      | none =>
        simp only [hget] at h ⊢
        have hparent : ∀ parent ∈ parentNames ini environment, ∀ v, Settled ini option depth parent v →
            importResolve ini enough ((envPrefix ++ environment) :: visited) parent option = .ok v := by
          intro parent hmem v hsettled
          have hasks : Asks ini option environment parent := ⟨hget, hmem⟩
          refine ih hsettled (by omega) fun section' hsection => ?_
          cases List.mem_cons.mp hsection with
          | inl hhere => exact ⟨environment, hhere, .single hasks⟩
          | inr hearlier =>
            obtain ⟨child, hsame, hbelow⟩ := hvisited section' hearlier
            exact ⟨child, hsame, hbelow.tail hasks⟩
        obtain ⟨-, -, ⟨hne, ⟨parent, hmem, hsettled⟩, hall⟩ | ⟨hall, hdefault⟩⟩ := h
        · have hfirst := firstValue_some hne ⟨parent, hmem, hparent parent hmem value hsettled⟩ fun q hq =>
            (hall q hq).imp (hparent q hq value) (hparent q hq [])
          rw [hfirst]
          change (if value ≠ [] then Except.ok value else _) = Except.ok value
          rw [if_pos hne]
        · have hfirst := firstValue_nil fun q hq => hparent q hq [] (hall q hq)
          rw [hfirst, ← default_raw hdefault]
          rfl

include h in
lemma importOption_settled : importOption ini environment option = .ok value := by
  obtain ⟨other, hother⟩ := importOption_total ini environment option
  have hsettled := importResolve_settled h (Nat.le_max_left depth (ini.sections.length + 1)) (fun _ hmem => absurd hmem List.not_mem_nil)
  rw [importResolve_le (Nat.le_max_right ..) hother] at hsettled
  rw [hother, hsettled]

lemma interpolate_of_literal (answer : Text → Except Unresolved Text) (h : Literal value) : interpolate answer value = .ok value := by
  have hfill := fill_literal answer value []
  rw [List.append_nil] at hfill
  rw [interpolate, h, hfill]
  simp [fill]

lemma resolve_of_own {visited : List (Text × Text)} {section' : Text} (hnew : (section', option) ∉ visited)
    (hsection : ini.hasSection section' = true) (hliteral : Literal value)
    (hown : own (ini.get section' option)
      (inherited ini (fun parent => resolve ini getenv depth (visited ++ [(section', option)]) parent option) section') = .ok value) :
    resolve ini getenv (depth + 1) visited section' option = .ok value := by
  rw [resolve]
  simp only [require, if_pos hnew, if_pos hsection, hown]
  exact interpolate_of_literal _ hliteral

lemma env_ne (name : Text) : env ≠ envPrefix ++ name := by
  intro h
  have hlength := congrArg List.length h
  simp only [List.length_append] at hlength
  change 3 = 4 + name.length at hlength
  omega

lemma resolve_default {visited : List (Text × Text)} {enough : ℕ} (h : Default ini option value depth) (hle : depth ≤ enough)
    (hsection : ini.hasSection env = true) (hvisited : (env, option) ∉ visited) :
    resolve ini getenv enough visited env option = .ok value := by
  have hliteral := default_literal h
  obtain ⟨hnone, -⟩ | ⟨hpos, hcases⟩ := default_cases h
  · rw [hnone] at hsection
    cases hsection
  · obtain ⟨levels, rfl⟩ : ∃ levels, enough = levels + 1 := ⟨enough - 1, by omega⟩
    refine resolve_of_own hvisited hsection hliteral ?_
    obtain ⟨raw, hget, rfl, -⟩ | ⟨hget, rfl, hparents⟩ := hcases
    · rw [hget]
      rfl
    · have hroot : ¬ envPrefix <+: env := by decide
      rw [hget]
      simp only [own, inherited, hparents, firstValue]
      change (if ([] : Text) = [] ∧ envPrefix <+: env ∧ ini.hasSection env = true then
        resolve ini getenv levels (visited ++ [(env, option)]) env option else Except.ok []) = Except.ok []
      rw [if_neg fun hasked => hroot hasked.2.1]

include h in
lemma resolve_settled {visited : List (Text × Text)} {enough : ℕ} (hle : depth ≤ enough)
    (hvisited : ∀ seen ∈ visited, ∃ child, seen = (envPrefix ++ child, option) ∧ Relation.TransGen (Asks ini option) child environment) :
    resolve ini getenv enough visited (envPrefix ++ environment) option = .ok value := by
  induction enough generalizing depth visited environment value with
  | zero =>
    rw [Nat.le_zero.mp hle] at h
    exact h.elim
  | succ enough ih =>
    cases depth with
    | zero => exact h.elim
    | succ depth =>
      have hnew : (envPrefix ++ environment, option) ∉ visited := by
        intro hmem
        obtain ⟨child, hsame, hbelow⟩ := hvisited _ hmem
        rw [← List.append_cancel_left (congrArg Prod.fst hsame)] at hbelow
        exact settled_acyclic h hbelow
      have hliteral := settled_literal h
      rw [Settled] at h
      cases hget : ini.get (envPrefix ++ environment) option with
      | some raw =>
        simp only [hget] at h
        refine resolve_of_own hnew (hasSection_of_get hget) hliteral ?_
        rw [hget, h.1]
        rfl
      | none =>
        simp only [hget] at h
        obtain ⟨hsection, hsame, hcases⟩ := h
        refine resolve_of_own hnew hsection hliteral ?_
        have hparent : ∀ parent ∈ parentNames ini environment, ∀ v, Settled ini option depth parent v →
            resolve ini getenv enough (visited ++ [(envPrefix ++ environment, option)]) (envPrefix ++ parent) option = .ok v := by
          intro parent hmem v hsettled
          have hasks : Asks ini option environment parent := ⟨hget, hmem⟩
          refine ih hsettled (by omega) fun seen hseen => ?_
          cases List.mem_append.mp hseen with
          | inl hearlier =>
            obtain ⟨child, hsame, hbelow⟩ := hvisited seen hearlier
            exact ⟨child, hsame, hbelow.tail hasks⟩
          | inr hhere => exact ⟨environment, List.mem_singleton.mp hhere, .single hasks⟩
        rw [hget]
        obtain ⟨hne, ⟨parent, hmem, hsettled⟩, hall⟩ | ⟨hall, hdefault⟩ := hcases
        · have hfirst : firstValue (fun parent => resolve ini getenv enough (visited ++ [(envPrefix ++ environment, option)]) parent option)
              (parents ini (envPrefix ++ environment)) = .ok value := by
            refine firstValue_some hne ⟨_, (hsame _).mpr ⟨parent, hmem, rfl⟩, hparent parent hmem value hsettled⟩ fun q hq => ?_
            obtain ⟨name, hname, rfl⟩ := (hsame q).mp hq
            exact (hall name hname).imp (hparent name hname value) (hparent name hname [])
          simp only [own, inherited, hfirst]
          change (if value = [] ∧ _ then _ else Except.ok value) = Except.ok value
          rw [if_neg fun hasked => hne hasked.1]
        · have hfirst : firstValue (fun parent => resolve ini getenv enough (visited ++ [(envPrefix ++ environment, option)]) parent option)
              (parents ini (envPrefix ++ environment)) = .ok [] := by
            refine firstValue_nil fun q hq => ?_
            obtain ⟨name, hname, rfl⟩ := (hsame q).mp hq
            exact hparent name hname [] (hall name hname)
          simp only [own, inherited, hfirst]
          change (if ([] : Text) = [] ∧ envPrefix <+: envPrefix ++ environment ∧ ini.hasSection env = true then _ else Except.ok []) =
            Except.ok value
          by_cases henv : ini.hasSection env = true
          · rw [if_pos ⟨rfl, List.prefix_append .., henv⟩]
            refine resolve_default hdefault (by omega) henv fun hmem => ?_
            cases List.mem_append.mp hmem with
            | inl hearlier =>
              obtain ⟨child, hchild, -⟩ := hvisited _ hearlier
              exact env_ne child (congrArg Prod.fst hchild)
            | inr hhere => exact env_ne environment (congrArg Prod.fst (List.mem_singleton.mp hhere))
          · rw [if_neg fun hasked => henv hasked.2.2]
            have hraw := default_raw hdefault
            rw [get_eq_none (by simpa using henv)] at hraw
            exact congrArg Except.ok hraw

/-- Where it does not matter which parent is asked first, the import shows what is built. -/
theorem sameMeaning_of_agreed (getenv : Text → Text) (h : Agreed ini environment option) : SameMeaning ini getenv environment option := by
  obtain ⟨depth, hdepth, value, hsettled⟩ := h
  exact ⟨value, resolve_settled hsettled hdepth fun _ hmem => absurd hmem List.not_mem_nil, importOption_settled hsettled⟩

/-- `[env]` with `board = esp32`, an empty `[env:a]`, and `[env:b]` with `extends = env:a`. -/
def inheriting : Ini :=
  ⟨[], [(env, [(board, ['e', 's', 'p', '3', '2'])]), (envPrefix ++ ['a'], []), (envPrefix ++ ['b'], [(extends', ['e', 'n', 'v', ':', 'a'])])]⟩

lemma inheriting_agreed : Agreed inheriting ['b'] board := by
  have hdefault : Default inheriting board ['e', 's', 'p', '3', '2'] 1 := ⟨rfl, rfl⟩
  have hparent : Settled inheriting board 2 ['a'] ['e', 's', 'p', '3', '2'] := by
    have hnames : parentNames inheriting ['a'] = [] := by decide +kernel
    have hparents : parents inheriting (envPrefix ++ ['a']) = [] := by decide +kernel
    exact ⟨rfl, by simp [hnames, hparents], .inr ⟨by simp [hnames], hdefault⟩⟩
  have hnames : parentNames inheriting ['b'] = [['a']] := by decide +kernel
  have hparents : parents inheriting (envPrefix ++ ['b']) = [envPrefix ++ ['a']] := by decide +kernel
  refine ⟨3, by decide, ['e', 's', 'p', '3', '2'], rfl, by simp [hnames, hparents], .inl ⟨by simp, ⟨['a'], by simp [hnames], hparent⟩, ?_⟩⟩
  intro parent hmem
  rw [hnames, List.mem_singleton] at hmem
  rw [hmem]
  exact .inl hparent

theorem inheriting_sameMeaning : SameMeaning inheriting (fun _ => []) ['b'] board := sameMeaning_of_agreed _ inheriting_agreed

/-- `[env:c]` extends `[env:a]` with `board = uno` and `[env:b]` with `board = mega`. -/
def twoParents : Ini :=
  ⟨[], [(envPrefix ++ ['a'], [(board, ['u', 'n', 'o'])]), (envPrefix ++ ['b'], [(board, ['m', 'e', 'g', 'a'])]),
    (envPrefix ++ ['c'], [(extends', ['e', 'n', 'v', ':', 'a', ',', ' ', 'e', 'n', 'v', ':', 'b'])])]⟩

theorem twoParents_differ : importOption twoParents ['c'] board = .ok ['u', 'n', 'o'] ∧
    resolveOption twoParents (fun _ => []) ['c'] board = .ok ['m', 'e', 'g', 'a'] ∧
    ¬ SameMeaning twoParents (fun _ => []) ['c'] board := by
  have himport : importOption twoParents ['c'] board = .ok ['u', 'n', 'o'] := by decide +kernel
  have hbuild : resolveOption twoParents (fun _ => []) ['c'] board = .ok ['m', 'e', 'g', 'a'] := by decide +kernel
  refine ⟨himport, hbuild, fun h => ?_⟩
  obtain ⟨value, hvalue, hother⟩ := h
  rw [hbuild] at hvalue
  rw [himport, ← hvalue] at hother
  exact absurd hother (by decide)

end PromptForge.ImportedOptions
