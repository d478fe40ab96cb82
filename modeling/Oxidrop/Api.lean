import Oxidrop.Database

/-!
# Requests and responses

What the handlers of the management interface share: the session behind a
request, the permission it needs, and the form of an answer.
-/
namespace Oxidrop

inductive StatusCode where
  | OK | NO_CONTENT | BAD_REQUEST | UNAUTHORIZED | INTERNAL_SERVER_ERROR | SERVICE_UNAVAILABLE
  deriving DecidableEq, Repr

inductive Body where
  | empty
  | text (message : String)
  | config (cfg : FirewallConfig)
  deriving DecidableEq, Repr

structure Response where
  status : StatusCode
  body : Body
  deriving DecidableEq, Repr

/-- `status.into_response()`. -/
def StatusCode.intoResponse (status : StatusCode) : Response := ⟨status, .empty⟩

@[simp] theorem intoResponse_status (status : StatusCode) :
    status.intoResponse.status = status := rfl

/-- `is_success`, which is `response.ok` in a client. -/
def StatusCode.isSuccess : StatusCode → Bool
  | .OK | .NO_CONTENT => true
  | _ => false

/-- The test that every changing handler makes on its caller. -/
def CallerContext.may (caller : CallerContext) (permission : ActionPermissions) : Bool :=
  caller.role = .admin && caller.permissions.contains permission

/-- The request comes with a session whose user has the permission. -/
def Authorized (session : Option CallerContext) (permission : ActionPermissions) : Prop :=
  ∃ caller, session = some caller ∧ caller.may permission = true

/-- A handler body for authorised callers only. -/
def withPermission {σ : Type} (session : Option CallerContext) (permission : ActionPermissions)
    (body : CallerContext → σ → Response × σ) (s : σ) : Response × σ :=
  match session with
  | none => (StatusCode.UNAUTHORIZED.intoResponse, s)
  | some caller =>
    if caller.may permission then body caller s
    else (StatusCode.UNAUTHORIZED.intoResponse, s)

/-- Either the request is refused and nothing changes, or the body runs. -/
theorem withPermission_cases {σ : Type} (session : Option CallerContext)
    (permission : ActionPermissions) (body : CallerContext → σ → Response × σ) (s : σ) :
    (¬ Authorized session permission ∧
      withPermission session permission body s = (StatusCode.UNAUTHORIZED.intoResponse, s)) ∨
    (∃ caller, session = some caller ∧ caller.may permission = true ∧
      withPermission session permission body s = body caller s) := by
  cases session with
  | none => exact .inl ⟨by simp [Authorized], rfl⟩
  | some caller =>
    by_cases hm : caller.may permission = true
    · exact .inr ⟨caller, rfl, hm, by simp [withPermission, hm]⟩
    · exact .inl ⟨by simp [Authorized, hm], by simp [withPermission, hm]⟩

/-- An answer other than the refusal comes from the body. -/
theorem withPermission_admitted {σ : Type} {session : Option CallerContext}
    {permission : ActionPermissions} {body : CallerContext → σ → Response × σ} {s : σ}
    (h : (withPermission session permission body s).1.status ≠ .UNAUTHORIZED) :
    ∃ caller, withPermission session permission body s = body caller s := by
  rcases withPermission_cases session permission body s with ⟨-, heq⟩ | ⟨caller, -, -, heq⟩
  · exact absurd (by rw [heq]; rfl) h
  · exact ⟨caller, heq⟩

end Oxidrop
