import Mathlib.Tactic
import PromptForge.Runs
import PromptForge.Tables

/-!
# Approval records for hardware actions

`agent_approvals` and the three store operations on it, with the service that
issues and consumes approvals. Clock readings are microseconds.
-/
namespace PromptForge.Approvals
open Runs Tables

abbrev Time := ℤ

inductive Status where
  | pending
  | consumed
  | expired
  | invalidated
  deriving DecidableEq

/-- The JSON payload of a row: `ApprovalRequest.to_dict` and what is added to it later. -/
structure Payload where
  approvalId : String
  runId : String
  actionType : String
  fingerprint : String
  status : Status
  expiresAt : Time
  createdAt : Time
  summary : String
  consumedAt : Option Time
  invalidatedAt : Option Time
  invalidationReason : Option String
  deriving DecidableEq

structure Row where
  approvalId : String
  runId : String
  actionType : String
  fingerprint : String
  status : Status
  expiresAt : Time
  payload : Payload
  createdAt : Time
  deriving DecidableEq

abbrev Table := List Row

inductive Refusal where
  | integrityError
  | notFound
  | alreadyConsumed
  | fingerprintChanged
  | expired
  deriving DecidableEq

def Refusal.code : Refusal → String
  | .integrityError => "UNIQUE constraint failed: agent_approvals.approval_id"
  | .notFound => "AGENT_APPROVAL_NOT_FOUND"
  | .alreadyConsumed => "AGENT_APPROVAL_ALREADY_CONSUMED"
  | .fingerprintChanged => "AGENT_APPROVAL_FINGERPRINT_CHANGED"
  | .expired => "AGENT_APPROVAL_EXPIRED"

abbrev find (t : Table) (approvalId : String) : Option Row := lookup Row.approvalId t approvalId

def rowOf (approval : Payload) : Row where
  approvalId := approval.approvalId
  runId := approval.runId
  actionType := approval.actionType
  fingerprint := approval.fingerprint
  status := approval.status
  expiresAt := approval.expiresAt
  payload := approval
  createdAt := approval.createdAt

def saveApproval (approval : Payload) : Work Table Refusal Unit := transaction fun t =>
  match insertRow Row.approvalId (rowOf approval) t with
  | none => (.error .integrityError, t)
  | some t' => (.ok (), t')

def markExpired (r : Row) : Row := { r with status := .expired }

def consumedPayload (stamp : Time) (payload : Payload) : Payload :=
  { payload with status := .consumed, consumedAt := some stamp }

def markConsumed (payload : Payload) (r : Row) : Row :=
  { r with status := .consumed, payload := payload }

@[simp] lemma markConsumed_approvalId (payload : Payload) (r : Row) :
    (markConsumed payload r).approvalId = r.approvalId := rfl

/-- `now` is the reading the expiry is compared with, `stamp` the one that is recorded. -/
def consumeApproval (approvalId fingerprint : String) (now stamp : Time) :
    Work Table Refusal Payload := transaction fun t =>
  match find t approvalId with
  | none => (.error .notFound, t)
  | some row =>
    if row.status ≠ .pending then (.error .alreadyConsumed, t)
    else if row.fingerprint ≠ fingerprint then (.error .fingerprintChanged, t)
    else if row.payload.expiresAt ≤ now then
      (.error .expired, updateWhere
        (fun r => r.approvalId = approvalId ∧ r.status = .pending) markExpired t)
    else
      let payload := consumedPayload stamp row.payload
      (.ok payload, updateWhere
        (fun r => r.approvalId = approvalId ∧ r.status = .pending) (markConsumed payload) t)

def markInvalidated (reason : String) (stamp : Time) (r : Row) : Row :=
  { r with
    status := .invalidated
    payload := { r.payload with
      status := .invalidated
      invalidatedAt := some stamp
      invalidationReason := some (reason.take 256).toString } }

@[simp] lemma markInvalidated_approvalId (reason : String) (stamp : Time) (r : Row) :
    (markInvalidated reason stamp r).approvalId = r.approvalId := rfl

def invalidatePendingApprovals (runId reason : String) (stamp : Time) :
    Work Table Refusal ℕ := transaction fun t =>
  (.ok (t.filter fun r => r.runId = runId ∧ r.status = .pending).length,
    updateWhere (fun r => r.runId = runId ∧ r.status = .pending) (markInvalidated reason stamp) t)

structure ApprovalService where
  ttlSeconds : ℤ
  lower : 60 ≤ ttlSeconds
  upper : ttlSeconds ≤ 3600

def ApprovalService.new (ttlSeconds : ℤ) : ApprovalService :=
  ⟨max 60 (min ttlSeconds 3600), le_max_left _ _, max_le (by decide) (min_le_right _ _)⟩

def normalizeSummary (summary : String) : String :=
  ((" ".intercalate ((summary.split Char.isWhitespace).toList.filterMap fun w =>
    if w.isEmpty then none else some w.toString)).take 512).toString

section Service
variable {Binding : Type} (sha256 : String × Binding → String)

def fingerprintOf (actionType : String) (binding : Binding) : String := sha256 (actionType, binding)

/-- The request that `issue` stores; `approvalId` carries the fresh `uuid4`. -/
def ApprovalService.request (service : ApprovalService) (approvalId runId actionType : String)
    (binding : Binding) (summary : String) (created : Time) : Payload where
  approvalId := approvalId
  runId := runId
  actionType := actionType
  fingerprint := fingerprintOf sha256 actionType binding
  status := .pending
  expiresAt := created + service.ttlSeconds * 1000000
  createdAt := created
  summary := normalizeSummary summary
  consumedAt := none
  invalidatedAt := none
  invalidationReason := none

/-- The operations callers interleave. -/
inductive Action (Binding : Type) where
  | issue (service : ApprovalService) (approvalId runId actionType : String) (binding : Binding)
      (summary : String) (created : Time)
  | consume (approvalId actionType : String) (binding : Binding) (now stamp : Time)
  | consumeDirect (approvalId fingerprint : String) (now stamp : Time)
  | invalidate (runId reason : String) (stamp : Time)

inductive Answer where
  | issued (request : Payload)
  | consumed (payload : Payload)
  | invalidated (count : ℕ)

def answer {τ : Type} (f : τ → Answer) (r : Except Refusal τ × Table) :
    Except Refusal Answer × Table :=
  (r.1.map f, r.2)

def step (t : Table) : Action Binding → Except Refusal Answer × Table
  | .issue service approvalId runId actionType binding summary created =>
    let request := service.request sha256 approvalId runId actionType binding summary created
    answer (fun _ => .issued request) (saveApproval request t)
  | .consume approvalId actionType binding now stamp =>
    answer .consumed (consumeApproval approvalId (fingerprintOf sha256 actionType binding) now stamp t)
  | .consumeDirect approvalId fingerprint now stamp =>
    answer .consumed (consumeApproval approvalId fingerprint now stamp t)
  | .invalidate runId reason stamp =>
    answer .invalidated (invalidatePendingApprovals runId reason stamp t)

end Service
end PromptForge.Approvals
