import Mathlib.Data.List.Dedup
import PromptForge.JsonText
import PromptForge.Runs

/-!
# Settling a review

A model reviews the requirements of a contract.
-/
namespace PromptForge.ReviewSettlement
open Json JsonText Runs Tables

inductive Refusal where
  | invalid
  | referencesInvalid
  | incomplete
  | notJson
  | typeError
  deriving DecidableEq

def Refusal.message : Refusal → Option String
  | .invalid => some "SEMANTIC_REVIEW_INVALID"
  | .referencesInvalid => some "SEMANTIC_REVIEW_REFERENCES_INVALID"
  | .incomplete => some "SEMANTIC_REVIEW_INCOMPLETE"
  | .notJson | .typeError => none

/-- The identifiers of the requirements, and the revision of the task, which may be `None`. -/
structure Contract where
  requirements : List String
  revision : Value

structure Answer where
  final : Bool
  toolCalls : Bool
  summary : String

structure Host where
  sha256 : String → String

structure Review where
  fields : Dict
  id : String
  verdict : String
  reason : String

def isNull : Value → Bool
  | .null => true
  | _ => false

def dicts : List Value → Except Refusal (List Dict)
  | [] => .ok []
  | .obj fields :: items => (dicts items).map (fields :: ·)
  | _ :: _ => .error .typeError

def checksOf (report : Dict) : Except Refusal (List Dict) :=
  match report.get? "checks" with
  | none => .ok []
  | some (.arr items) => dicts items
  | some _ => .error .typeError

def idOf (check : Dict) : String := (str? (check.get "id")).getD ""

def RefersTo (contract : Contract) (checks : List Dict) : Prop :=
  checks.length = contract.requirements.dedup.length ∧ (∀ check ∈ checks, (str? (check.get "id")).isSome = true) ∧
    checks.map idOf ⊆ contract.requirements ∧ contract.requirements ⊆ checks.map idOf

instance (contract : Contract) (checks : List Dict) : Decidable (RefersTo contract checks) := inferInstanceAs (Decidable (_ ∧ _ ∧ _ ∧ _))

def readReview (contract : Contract) (seen : List String) : Value → Except Refusal Review
  | .obj item => do
    require (Dict.HasKeys item ["id", "verdict", "reason"]) .invalid
    match Dict.get item "id", Dict.get item "verdict", Dict.get item "reason" with
    | .str id, .str verdict, .str reason => do
      require (id ∈ contract.requirements ∧ id ∉ seen) .invalid
      require (verdict = "satisfied" ∨ verdict = "unverified") .invalid
      require (1 ≤ reason.length ∧ reason.length ≤ 2000) .invalid
      .ok ⟨item, id, verdict, reason⟩
    | _, _, _ => .error .invalid
  | _ => .error .invalid

def readReviews (contract : Contract) : List String → List Value → Except Refusal (List Review)
  | _, [] => .ok []
  | seen, raw :: raws => do
    let review ← readReview contract seen raw
    let reviews ← readReviews contract (review.id :: seen) raws
    .ok (review :: reviews)

def settleCheck (reviews : List Review) (check : Dict) : Dict :=
  match lookup Review.id reviews (idOf check) with
  | some review =>
    (check.set "status" (.str (if review.verdict = "satisfied" then "reviewed" else "unverified"))).set "review_reason" (.str review.reason)
  | none => check

def isReviewed (check : Dict) : Bool := str? (check.get "status") = some "reviewed"

def isTrue : Value → Bool
  | .bool b => b
  | _ => false

variable (host : Host)

def settled (contract : Contract) (report : Dict) (answer : Answer) (revision : Value) (checks : List Dict) (reviews : List Review) : Dict :=
  let checks := checks.map (settleCheck reviews)
  let valid := !contract.requirements.isEmpty && isTrue (report.get "references_valid") && checks.all isReviewed
  ((((report.set "checks" (.arr (checks.map .obj))).set "valid" (.bool valid)).set "verification_level" (.str "model_review")).set
    "semantic_review" (.obj
      [("source_revision", revision), ("task_revision", contract.revision), ("response_sha256", .str (host.sha256 answer.summary)),
        ("checks", .arr (reviews.map fun review => .obj review.fields)), ("execution_verified", .bool false)]))

def settleReview (contract : Contract) (report : Dict) (answer : Answer) (revision : Value) : Except Refusal Dict := do
  let checks ← checksOf report
  require (answer.final = true ∧ answer.toolCalls = false ∧ same (report.get "workspace_revision") revision = true) .invalid
  match loads answer.summary with
  | none => .error .notJson
  | some value => do
    require (RefersTo contract checks ∧ (isNull contract.revision = true ∨ same (report.get "task_revision") contract.revision = true))
      .referencesInvalid
    match value with
    | .obj fields => do
      require (Dict.HasKeys fields ["checks"]) .invalid
      match Dict.get fields "checks" with
      | .arr items => do
        let reviews ← readReviews contract [] items
        require (contract.requirements ⊆ reviews.map Review.id) .incomplete
        .ok (settled host contract report answer revision checks reviews)
      | _ => .error .invalid
    | _ => .error .invalid

variable {host} {contract : Contract} {report : Dict} {answer : Answer} {revision : Value} {checks : List Dict} {reviews : List Review}

structure IsReview (raw : Value) (review : Review) : Prop where
  fields : raw = .obj review.fields
  keys : review.fields.HasKeys ["id", "verdict", "reason"]
  id : review.fields.get "id" = .str review.id
  verdict : review.fields.get "verdict" = .str review.verdict
  known : review.verdict = "satisfied" ∨ review.verdict = "unverified"
  reason : review.fields.get "reason" = .str review.reason
  length : 1 ≤ review.reason.length ∧ review.reason.length ≤ 2000

lemma readReview_iff {seen : List String} {raw : Value} {review : Review} : readReview contract seen raw = .ok review ↔
    IsReview raw review ∧ review.id ∈ contract.requirements ∧ review.id ∉ seen := by
  constructor
  · intro h
    cases raw with
    | obj item =>
      simp only [readReview] at h
      obtain ⟨hkeys, h⟩ := require_iff.mp h
      cases hid : Dict.get item "id" with
      | str id =>
        cases hverdict : Dict.get item "verdict" with
        | str verdict =>
          cases hreason : Dict.get item "reason" with
          | str reason =>
            simp only [hid, hverdict, hreason] at h
            obtain ⟨hfresh, h⟩ := require_iff.mp h
            obtain ⟨hknown, h⟩ := require_iff.mp h
            obtain ⟨hlength, h⟩ := require_iff.mp h
            cases h
            exact ⟨⟨rfl, hkeys, hid, hverdict, hknown, hreason, hlength⟩, hfresh⟩
          | _ => simp [hid, hverdict, hreason] at h
        | _ => simp [hid, hverdict] at h
      | _ => simp [hid] at h
    | _ => cases h
  · rintro ⟨h, hfresh⟩
    rw [h.fields]
    simp only [readReview, h.id, h.verdict, h.reason]
    exact require_iff.mpr ⟨h.keys, require_iff.mpr ⟨hfresh, require_iff.mpr ⟨h.known, require_iff.mpr ⟨h.length, rfl⟩⟩⟩⟩

lemma readReviews_iff {seen : List String} {raws : List Value} : readReviews contract seen raws = .ok reviews ↔
    List.Forall₂ IsReview raws reviews ∧ (reviews.map Review.id).Nodup ∧
      ∀ review ∈ reviews, review.id ∈ contract.requirements ∧ review.id ∉ seen := by
  induction raws generalizing seen reviews with
  | nil =>
    constructor
    · intro h
      cases h
      exact ⟨.nil, List.nodup_nil, by simp⟩
    · rintro ⟨hall, -⟩
      cases hall
      rfl
  | cons raw raws ih =>
    constructor
    · intro h
      obtain ⟨review, hreview, h⟩ := ok_of_bind h
      obtain ⟨rest, hrest, h⟩ := ok_of_bind h
      cases h
      obtain ⟨hfirst, hfresh⟩ := readReview_iff.mp hreview
      obtain ⟨hall, hnodup, hlater⟩ := ih.mp hrest
      refine ⟨.cons hfirst hall, ?_, List.forall_mem_cons.mpr ⟨hfresh, fun other hother => ?_⟩⟩
      · refine List.nodup_cons.mpr ⟨fun hmem => ?_, hnodup⟩
        obtain ⟨other, hother, hsame⟩ := List.mem_map.mp hmem
        exact (hlater other hother).2 (by simp [hsame])
      · exact ⟨(hlater other hother).1, fun hseen => (hlater other hother).2 (List.mem_cons_of_mem _ hseen)⟩
    · rintro ⟨hall, hnodup, hfresh⟩
      cases hall with
      | cons hfirst hrest =>
        rename_i review rest
        obtain ⟨hnew, hnodup⟩ := List.nodup_cons.mp hnodup
        obtain ⟨hfirstFresh, hrestFresh⟩ := List.forall_mem_cons.mp hfresh
        have hlater : readReviews contract (review.id :: seen) raws = .ok rest := by
          refine ih.mpr ⟨hrest, hnodup, fun other hother => ⟨(hrestFresh other hother).1, fun hmem => ?_⟩⟩
          cases List.mem_cons.mp hmem with
          | inl hsame => exact hnew (hsame ▸ List.mem_map_of_mem hother)
          | inr hseen => exact (hrestFresh other hother).2 hseen
        unfold readReviews
        rw [readReview_iff.mpr ⟨hfirst, hfirstFresh⟩]
        change (readReviews contract (review.id :: seen) raws >>= fun reviews => .ok (review :: reviews)) = _
        rw [hlater]
        rfl

def Satisfies (contract : Contract) (items : List Value) : Prop :=
  ∃ reviews, List.Forall₂ IsReview items reviews ∧ (reviews.map Review.id).Perm contract.requirements.dedup ∧
    ∀ review ∈ reviews, review.verdict = "satisfied"

structure Settled (contract : Contract) (report : Dict) (answer : Answer) (revision : Value) : Prop where
  required : contract.requirements ≠ []
  final : answer.final = true ∧ answer.toolCalls = false
  revision : same (report.get "workspace_revision") revision = true
  task : isNull contract.revision = true ∨ same (report.get "task_revision") contract.revision = true
  valid : isTrue (report.get "references_valid") = true
  references : ∃ (checks : List Dict) (ids : List String), checksOf report = .ok checks ∧ checks.map (fun check => check.get "id") = ids.map Value.str ∧
    ids.Perm contract.requirements.dedup
  answered : ∃ (fields : Dict) (items : List Value), loads answer.summary = some (.obj fields) ∧ fields.HasKeys ["checks"] ∧
    fields.get "checks" = .arr items ∧ Satisfies contract items

lemma perm_of_subset {α : Type} {xs ys : List α} (hnodup : ys.Nodup) (hsub : ys ⊆ xs) (hlength : xs.length ≤ ys.length) : xs.Perm ys :=
  ((hnodup.subperm hsub).perm_of_length_le hlength).symm

lemma refersTo_iff : RefersTo contract checks ↔
    ∃ ids : List String, checks.map (fun check => check.get "id") = ids.map Value.str ∧ ids.Perm contract.requirements.dedup := by
  constructor
  · rintro ⟨hlength, hids, -, hsub⟩
    refine ⟨checks.map idOf, ?_, perm_of_subset (List.nodup_dedup _) ?_ ?_⟩
    · rw [List.map_map]
      refine List.map_congr_left fun check hcheck => ?_
      obtain ⟨id, hid⟩ := Option.isSome_iff_exists.mp (hids check hcheck)
      simp only [Function.comp_apply, idOf, hid, Option.getD_some]
      cases hvalue : check.get "id" <;> simp_all [str?]
    · exact fun id hid => hsub (List.mem_dedup.mp hid)
    · rw [List.length_map, hlength]
  · rintro ⟨ids, hids, hperm⟩
    have hid : checks.map idOf = ids := by
      have hread := congrArg (List.map fun value => (str? value).getD "") hids
      rw [List.map_map, List.map_map] at hread
      exact hread.trans (by simp [Function.comp_def, str?])
    refine ⟨?_, fun check hcheck => ?_, ?_, ?_⟩
    · rw [← hperm.length_eq, ← hid, List.length_map]
    · have hmem : check.get "id" ∈ ids.map Value.str := hids ▸ List.mem_map_of_mem hcheck
      obtain ⟨id, -, hsame⟩ := List.mem_map.mp hmem
      rw [← hsame]
      rfl
    · rw [hid]
      exact fun id hmem => List.mem_dedup.mp (hperm.subset hmem)
    · rw [hid]
      exact fun id hmem => hperm.symm.subset (List.mem_dedup.mpr hmem)

lemma valid_settled : (settled host contract report answer revision checks reviews).get "valid" =
    .bool (!contract.requirements.isEmpty && isTrue (report.get "references_valid") && (checks.map (settleCheck reviews)).all isReviewed) := by
  unfold settled Dict.get
  simp

lemma isReviewed_settleCheck {check : Dict} {review : Review} (h : lookup Review.id reviews (idOf check) = some review) :
    isReviewed (settleCheck reviews check) = true ↔ review.verdict = "satisfied" := by
  unfold isReviewed settleCheck Dict.get
  rw [h]
  by_cases hverdict : review.verdict = "satisfied" <;> simp [hverdict, str?]

lemma all_reviewed_iff (hrefers : RefersTo contract checks) (hnodup : (reviews.map Review.id).Nodup)
    (hreviews : reviews.map Review.id ⊆ contract.requirements) (hcomplete : contract.requirements ⊆ reviews.map Review.id) :
    (checks.map (settleCheck reviews)).all isReviewed = true ↔ ∀ review ∈ reviews, review.verdict = "satisfied" := by
  obtain ⟨-, -, hids, hall⟩ := hrefers
  rw [List.all_map, List.all_eq_true]
  constructor
  · intro h review hreview
    obtain ⟨check, hcheck, hsame⟩ := List.mem_map.mp (hall (hreviews (List.mem_map_of_mem hreview)))
    have hlookup : lookup Review.id reviews (idOf check) = some review := by
      rw [hsame]
      exact lookup_of_mem hnodup hreview
    exact (isReviewed_settleCheck hlookup).mp (h check hcheck)
  · intro h check hcheck
    obtain ⟨review, hreview, hsame⟩ := List.mem_map.mp (hcomplete (hids (List.mem_map_of_mem hcheck)))
    have hlookup : lookup Review.id reviews (idOf check) = some review := by
      rw [← hsame]
      exact lookup_of_mem hnodup hreview
    exact (isReviewed_settleCheck hlookup).mpr (h review hreview)

theorem review_exact (host : Host) (contract : Contract) (report : Dict) (answer : Answer) (revision : Value) :
    (∃ result, settleReview host contract report answer revision = .ok result ∧ result.get "valid" = .bool true) ↔
      Settled contract report answer revision := by
  constructor
  · rintro ⟨result, h, hvalid⟩
    obtain ⟨checks, hchecks, h⟩ := ok_of_bind h
    obtain ⟨⟨hfinal, hquiet, hrevision⟩, h⟩ := require_iff.mp h
    cases hloads : loads answer.summary with
    | none => simp [hloads] at h
    | some value =>
      simp only [hloads] at h
      obtain ⟨⟨hrefers, htask⟩, h⟩ := require_iff.mp h
      cases value with
      | obj fields =>
        obtain ⟨hkeys, h⟩ := require_iff.mp h
        cases hitems : Dict.get fields "checks" with
        | arr items =>
          simp only [hitems] at h
          obtain ⟨reviews, hreviews, h⟩ := ok_of_bind h
          obtain ⟨hcomplete, h⟩ := require_iff.mp h
          cases h
          obtain ⟨hall, hnodup, hmem⟩ := readReviews_iff.mp hreviews
          have hsub : reviews.map Review.id ⊆ contract.requirements := fun id hid => by
            obtain ⟨review, hreview, rfl⟩ := List.mem_map.mp hid
            exact (hmem review hreview).1
          rw [valid_settled] at hvalid
          simp only [Value.bool.injEq, Bool.and_eq_true, Bool.not_eq_true', List.isEmpty_eq_false_iff] at hvalid
          obtain ⟨⟨hrequired, hreferences⟩, hreviewed⟩ := hvalid
          obtain ⟨ids, hids, hperm⟩ := refersTo_iff.mp hrefers
          refine ⟨hrequired, ⟨hfinal, hquiet⟩, hrevision, htask, hreferences, ⟨checks, ids, hchecks, hids, hperm⟩,
            ⟨fields, items, hloads, hkeys, hitems, reviews, hall, ?_, (all_reviewed_iff hrefers hnodup hsub hcomplete).mp hreviewed⟩⟩
          exact (List.perm_ext_iff_of_nodup hnodup (List.nodup_dedup _)).mpr fun id =>
            ⟨fun hid => List.mem_dedup.mpr (hsub hid), fun hid => hcomplete (List.mem_dedup.mp hid)⟩
        | _ => simp [hitems] at h
      | _ => cases h
  · rintro ⟨hrequired, ⟨hfinal, hquiet⟩, hrevision, htask, hreferences, ⟨checks, ids, hchecks, hids, hperm⟩,
      ⟨fields, items, hloads, hkeys, hitems, reviews, hall, hverdicts, hsatisfied⟩⟩
    have hrefers := refersTo_iff.mpr ⟨ids, hids, hperm⟩
    have hnodup : (reviews.map Review.id).Nodup := hverdicts.nodup_iff.mpr (List.nodup_dedup _)
    have hsub : reviews.map Review.id ⊆ contract.requirements := fun id hid => List.mem_dedup.mp (hverdicts.subset hid)
    have hcomplete : contract.requirements ⊆ reviews.map Review.id := fun id hid => hverdicts.symm.subset (List.mem_dedup.mpr hid)
    have hreviews : readReviews contract [] items = .ok reviews :=
      readReviews_iff.mpr ⟨hall, hnodup, fun review hreview => ⟨hsub (List.mem_map_of_mem hreview), by simp⟩⟩
    refine ⟨settled host contract report answer revision checks reviews, ?_, ?_⟩
    · unfold settleReview
      rw [hchecks]
      refine require_iff.mpr ⟨⟨hfinal, hquiet, hrevision⟩, ?_⟩
      simp only [hloads]
      refine require_iff.mpr ⟨⟨hrefers, htask⟩, require_iff.mpr ⟨hkeys, ?_⟩⟩
      simp only [hitems, hreviews]
      exact require_iff.mpr ⟨hcomplete, rfl⟩
    · have hreviewed := (all_reviewed_iff hrefers hnodup hsub hcomplete).mpr hsatisfied
      rw [valid_settled, hreviewed, hreferences]
      simp [hrequired]

end PromptForge.ReviewSettlement
