import KnxVault.Auth.Agent
import KnxVault.Auth.Login
import KnxVault.Std.Concurrent

/-!
# The machine-identity gate

Kubernetes and OIDC logins look up the machine identity, record it and issue a
token; a delegation issues the agent's token and then records its identity
(`internal/auth/token.go`, `agent.go` and `internal/service/machine_identity.go`).
Each of these is a call of a repository of its own, so that logins, delegations
and revocations on any number of nodes interleave between them. The roles and
policies stay as they are.
-/

namespace KnxVault.Auth

open KnxVault.Std KnxVault.Domain KnxVault.Repository

/-! ### Calls on the repositories -/

structure IdentityStores where
  identities : MachineIdentityRepository
  tokens : TokenRepository

inductive IdentityOp where
  | now
  /-- The hash of a fresh token. -/
  | drawToken
  | getIdentity (id : String)
  | saveIdentity (identity : MachineIdentity)
  | revokeIdentity (id : String)
  | saveToken (record : ClientToken)

abbrev IdentityOp.Answer : IdentityOp → Type
  | now => Time
  | drawToken => String
  | getIdentity _ => Except KNXVaultError MachineIdentity
  | saveIdentity _ | revokeIdentity _ | saveToken _ => Except KNXVaultError Unit

structure IdentityDraw where
  clock : Time
  tokenID : String
  /-- A hash in hexadecimal is not empty. -/
  hashed : tokenID ≠ ""

def IdentityOp.exec (draw : IdentityDraw) :
    (op : IdentityOp) → IdentityStores → op.Answer × IdentityStores
  | now, stores => (draw.clock, stores)
  | drawToken, stores => (draw.tokenID, stores)
  | getIdentity id, stores => (stores.identities.get id, stores)
  | saveIdentity identity, stores =>
    attempt ((stores.identities.save identity).map fun identities => { stores with identities })
      stores
  | revokeIdentity id, stores =>
    attempt ((stores.identities.revoke id).map fun identities => { stores with identities }) stores
  | saveToken record, stores =>
    attempt ((TokenRepository.save stores.tokens record).map fun tokens => { stores with tokens })
      stores

abbrev IdentityProgram := Fallible IdentityOp IdentityOp.Answer KNXVaultError

namespace IdentityProgram

def now : IdentityProgram Time := Fallible.perform IdentityOp.now

def drawToken : IdentityProgram String := Fallible.perform IdentityOp.drawToken

def getIdentity (id : String) : IdentityProgram MachineIdentity :=
  ExceptT.mk (.perform (IdentityOp.getIdentity id))

def saveIdentity (identity : MachineIdentity) : IdentityProgram Unit :=
  ExceptT.mk (.perform (IdentityOp.saveIdentity identity))

def revokeIdentity (id : String) : IdentityProgram Unit :=
  ExceptT.mk (.perform (IdentityOp.revokeIdentity id))

def saveToken (record : ClientToken) : IdentityProgram Unit :=
  ExceptT.mk (.perform (IdentityOp.saveToken record))

def lift {α : Type} (result : Except KNXVaultError α) : IdentityProgram α :=
  ExceptT.mk (pure result)

def upsertFromLogin (identity : MachineIdentity) : IdentityProgram Unit := do
  let clock ← now
  saveIdentity { identity with lastSeen := clock.utc }

def isRevoked (id : String) : IdentityProgram Bool := do
  let identity ← getIdentity id
  pure identity.revoked

def checkIdentity (service : LoginService) (id : String) : IdentityProgram Unit :=
  if service.nhi then do
    match ← Fallible.outcome (isRevoked id) with
    | .error err =>
      lift (.error {
        code := .unavailable, message := "identity check failed", cause := some err.error })
    | .ok true => lift (failWith .forbidden "machine identity revoked")
    | .ok false => pure ()
  else pure ()

/-- Record the identity; an error is ignored. -/
def recordIdentity (service : LoginService) (identity : MachineIdentity) : IdentityProgram Unit :=
  if service.nhi then do
    let _ ← Fallible.outcome (upsertFromLogin identity)
    pure ()
  else pure ()

def create (defaultTTL : Int) (subject : String) (policies : List String) (ttl : Int)
    (renewable : Bool) (maxExpiresAt : Time) : IdentityProgram ClientToken := do
  let id ← drawToken
  let clock ← now
  let record := createdToken defaultTTL clock id subject policies ttl renewable maxExpiresAt
  saveToken record
  pure record

end IdentityProgram

/-! ### Logins and delegations -/

namespace IdentityProgram

/-- The identity is looked up, then recorded anew, and then the token issued. -/
def login (service : LoginService) (defaultTTL : Int) (admitted : Except KNXVaultError Admission) :
    IdentityProgram ClientToken := do
  let admission ← lift admitted
  checkIdentity service admission.identity.id
  recordIdentity service admission.identity
  let clock ← now
  create defaultTTL admission.subject admission.identity.policies admission.ttl true
    (clock.utc.add admission.ttl)

/-- The record of the token that is delegated. -/
def delegatedToken (clock : Time) (id : String) (parent : Principal)
    (req : AgentDelegateRequest) : ClientToken :=
  agentToken clock id ("agent:" ++ req.agentID) req.policies (agentTTL req.ttl)
    (delegatedScope parent req)

def createAgent (parent : Principal) (req : AgentDelegateRequest) :
    IdentityProgram ClientToken := do
  let id ← drawToken
  let clock ← now
  let record := delegatedToken clock id parent req
  saveToken record
  pure record

/-- The token is issued first; the identity is recorded without a look at it. -/
def delegateAgent (service : LoginService) (rbac : RBAC) (parent : Principal)
    (req : AgentDelegateRequest) : IdentityProgram ClientToken := do
  lift (admitDelegation rbac parent req)
  let record ← createAgent parent req
  recordIdentity service (agentIdentity parent req)
  pure record

end IdentityProgram

/-! ### Any number of nodes -/

/-- What a node is configured with. -/
structure IdentityNode where
  service : LoginService
  roles : RoleRepository
  rbac : RBAC
  /-- The default lifetime of a token. -/
  ttl : Int

inductive IdentityCall where
  | loginKubernetes (locked : Bool) (role jwtToken : String)
  | loginOIDC (locked : Bool) (role jwtToken : String)
  | delegateAgent (parent : Principal) (req : AgentDelegateRequest)
  | revoke (id : String)

abbrev IdentityCall.Result : IdentityCall → Type
  | loginKubernetes .. | loginOIDC .. | delegateAgent .. => Except KNXVaultError ClientToken
  | revoke _ => Except KNXVaultError Unit

abbrev identityNodes (node : IdentityNode) : Interleaving where
  State := IdentityStores
  Op := IdentityOp
  Answer := IdentityOp.Answer
  Draw := IdentityDraw
  exec := IdentityOp.exec
  Call := IdentityCall
  Result := IdentityCall.Result
  program
    | .loginKubernetes locked role jwtToken =>
      (IdentityProgram.login node.service node.ttl
        (admitKubernetes node.service node.roles node.ttl locked role jwtToken)).run
    | .loginOIDC locked role jwtToken =>
      (IdentityProgram.login node.service node.ttl
        (admitOIDC node.service node.roles locked role jwtToken)).run
    | .delegateAgent parent req =>
      (IdentityProgram.delegateAgent node.service node.rbac parent req).run
    | .revoke id => (IdentityProgram.revokeIdentity id).run

namespace IdentityCall

variable (node : IdentityNode) (id : String)

/-- The call is a login for the identity that passes every check but that of the
identity itself. -/
def Enters : IdentityCall → Prop
  | loginKubernetes locked role jwtToken =>
    ∃ admission, admitKubernetes node.service node.roles node.ttl locked role jwtToken =
      .ok admission ∧ admission.identity.id = id
  | loginOIDC locked role jwtToken =>
    ∃ admission, admitOIDC node.service node.roles locked role jwtToken = .ok admission ∧
      admission.identity.id = id
  | delegateAgent .. | revoke _ => False

/-- The login is refused, though it would be accepted but for its identity, or
the revocation succeeds. -/
def ShowsRevoked : (call : IdentityCall) → call.Result → Prop
  | loginKubernetes locked role jwtToken, result =>
    (loginKubernetes locked role jwtToken).Enters node id ∧ ∃ err, result = .error err
  | loginOIDC locked role jwtToken, result =>
    (loginOIDC locked role jwtToken).Enters node id ∧ ∃ err, result = .error err
  | delegateAgent .., _ => False
  | revoke other, result => other = id ∧ result = .ok ()

/-- The identity gets a token. -/
def Issued : (call : IdentityCall) → call.Result → Prop
  | loginKubernetes locked role jwtToken, result =>
    (loginKubernetes locked role jwtToken).Enters node id ∧ ∃ token, result = .ok token
  | loginOIDC locked role jwtToken, result =>
    (loginOIDC locked role jwtToken).Enters node id ∧ ∃ token, result = .ok token
  | delegateAgent _ req, result =>
    nhiKey "agent" "" "" req.agentID = id ∧ ∃ token, result = .ok token
  | revoke _, _ => False

end IdentityCall

namespace IdentityOp

def IsRevoked (id : String) (stores : IdentityStores) : Prop :=
  ∃ identity, stores.identities.find id = some identity ∧ identity.revoked = true

/-- An identity is looked up only after it has been recorded, and it is recorded
anew, or its agent gets a token, only while it is not revoked. -/
def Gated (stores : IdentityStores) : IdentityOp → Prop
  | getIdentity id => (stores.identities.find id).isSome
  | saveIdentity identity =>
    ∀ stored ∈ stores.identities.find identity.id, stored.revoked = false
  | saveToken record => record.agentID ≠ "" →
    ∀ stored ∈ stores.identities.find (nhiKey "agent" "" "" record.agentID), stored.revoked = false
  | now | drawToken | revokeIdentity _ => True

instance (stores : IdentityStores) : (op : IdentityOp) → Decidable (Gated stores op)
  | getIdentity _ => inferInstanceAs (Decidable (_ = _))
  | saveIdentity identity =>
    inferInstanceAs (Decidable (∀ stored ∈ stores.identities.find identity.id, _))
  | saveToken _ => inferInstanceAs (Decidable (_ → _))
  | now | drawToken | revokeIdentity _ => isTrue trivial

/-- No record is written with its flag set. -/
def LeavesFlag : IdentityOp → Prop
  | saveIdentity identity => identity.revoked = false
  | _ => True

variable (id : String)

/-- What the answers show while the identity is revoked: a lookup finds its flag,
and its agent is not given a token. -/
def ShowsRevoked : (op : IdentityOp) → op.Answer → Prop
  | getIdentity other, answer => other = id → ∀ identity, answer = .ok identity →
    identity.revoked = true
  | saveToken record, _ => record.agentID ≠ "" → nhiKey "agent" "" "" record.agentID ≠ id
  | _, _ => True

/-- What the answers show while it is not revoked. -/
def ShowsUnrevoked : (op : IdentityOp) → op.Answer → Prop
  | drawToken, token => token ≠ ""
  | getIdentity other, answer => other = id → ∃ identity, answer = .ok identity ∧
    identity.revoked = false
  | revokeIdentity other, answer => other = id → answer ≠ .ok ()
  | saveToken record, answer => record.id ≠ "" → answer = .ok ()
  | _, _ => True

variable {id} {draw : IdentityDraw} {stores : IdentityStores}

theorem isRevoked_of_revoke {later : MachineIdentityRepository}
    (done : stores.identities.revoke id = .ok later) :
    IsRevoked id { stores with identities := later } := by
  obtain ⟨identity, found, -⟩ := changeRow_ok_iff.mp done
  refine ⟨{ identity with revoked := true }, ?_, rfl⟩
  change later.find id = _
  rw [find_of_changeRow done fun _ => rfl, if_pos rfl, found, Option.map_some]

/-- The record of one identity after an operation. -/
theorem find_exec (id : String) (draw : IdentityDraw) (stores : IdentityStores)
    (op : IdentityOp) :
    (op.exec draw stores).2.identities.find id = stores.identities.find id ∨
    (∃ identity, op = .saveIdentity identity ∧ identity.id = id ∧
      (op.exec draw stores).2.identities.find id = some identity) ∨
    op = .revokeIdentity id ∧ IsRevoked id (op.exec draw stores).2 := by
  cases op with
  | now => exact .inl rfl
  | drawToken => exact .inl rfl
  | getIdentity other => exact .inl rfl
  | saveToken record =>
    left
    simp only [exec]
    cases TokenRepository.save stores.tokens record <;> rfl
  | saveIdentity identity =>
    cases saved : stores.identities.save identity with
    | error err =>
      simp only [exec, saved]
      exact .inl rfl
    | ok later =>
      simp only [exec, saved]
      obtain ⟨valid, rfl⟩ := saveRow_ok_iff.mp saved
      change (stores.identities.put identity valid).find id = _ ∨ _
      rw [Table.find_put]
      by_cases same : identity.id = id
      · exact .inr (.inl ⟨identity, rfl, same, by
          change (stores.identities.put identity valid).find id = _
          rw [Table.find_put, if_pos same]⟩)
      · exact .inl (by rw [if_neg same])
  | revokeIdentity other =>
    cases done : stores.identities.revoke other with
    | error err =>
      simp only [exec, done]
      exact .inl rfl
    | ok later =>
      simp only [exec, done]
      by_cases same : other = id
      · subst same
        exact .inr (.inr ⟨rfl, isRevoked_of_revoke done⟩)
      · left
        change later.find id = _
        rw [find_of_changeRow done fun _ => rfl, if_neg same]

variable {op : IdentityOp}

theorem isRevoked_kept (gated : Gated stores op) (revoked : IsRevoked id stores) :
    IsRevoked id (op.exec draw stores).2 := by
  obtain ⟨identity, found, flagged⟩ := revoked
  obtain same | ⟨written, rfl, rfl, -⟩ | ⟨-, revoked⟩ := find_exec id draw stores op
  · exact ⟨identity, same.trans found, flagged⟩
  · have unrevoked := gated identity found
    rw [flagged] at unrevoked
    cases unrevoked
  · exact revoked

/-- Only a revocation sets the flag. -/
theorem eq_revokeIdentity_of_changed (leaves : LeavesFlag op) (unset : ¬ IsRevoked id stores)
    (set : IsRevoked id (op.exec draw stores).2) :
    op = .revokeIdentity id := by
  obtain ⟨identity, found, flagged⟩ := set
  obtain same | ⟨written, rfl, -, stored⟩ | ⟨revokes, -⟩ := find_exec id draw stores op
  · exact absurd ⟨identity, same.symm.trans found, flagged⟩ unset
  · rw [stored, Option.some.injEq] at found
    subst found
    rw [leaves] at flagged
    cases flagged
  · exact revokes

theorem showsRevoked_of_isRevoked (gated : Gated stores op) (revoked : IsRevoked id stores) :
    ShowsRevoked id op (op.exec draw stores).1 := by
  obtain ⟨identity, found, flagged⟩ := revoked
  cases op with
  | getIdentity other =>
    rintro rfl shown answered
    simp only [exec, MachineIdentityRepository.get, getRow, found, Except.ok.injEq] at answered
    rw [← answered]
    exact flagged
  | saveToken record =>
    rintro named rfl
    have unrevoked := gated named identity found
    rw [flagged] at unrevoked
    cases unrevoked
  | now | drawToken | saveIdentity _ | revokeIdentity _ => trivial

theorem showsUnrevoked_of_exec (gated : Gated stores op)
    (unrevoked : ¬ IsRevoked id (op.exec draw stores).2) :
    ShowsUnrevoked id op (op.exec draw stores).1 := by
  cases op with
  | drawToken => exact draw.hashed
  | getIdentity other =>
    rintro rfl
    obtain ⟨identity, found⟩ := Option.isSome_iff_exists.mp gated
    refine ⟨identity, ?_, ?_⟩
    · simp only [exec, MachineIdentityRepository.get, getRow, found]
    · by_contra flagged
      exact unrevoked ⟨identity, found, by simpa using flagged⟩
  | revokeIdentity other =>
    rintro rfl answered
    cases done : stores.identities.revoke other with
    | error err =>
      simp only [exec, done] at answered
      cases answered
    | ok later =>
      simp only [exec, done] at unrevoked
      exact unrevoked (isRevoked_of_revoke done)
  | saveToken record =>
    intro named
    simp only [exec, TokenRepository.save, dif_neg named]
    rfl
  | now | saveIdentity _ => trivial

end IdentityOp

namespace IdentityProgram

variable (service : LoginService) (id : String)

/-! ### What the calls conclude from the answers -/

section Operations

variable {Answered : (op : IdentityOp) → op.Answer → Prop}

theorem now_ensures {Post : Except KNXVaultError Time → Prop} :
    now.run.Ensures Answered Post ↔ ∀ clock, Answered .now clock → Post (.ok clock) := Iff.rfl

theorem drawToken_ensures {Post : Except KNXVaultError String → Prop} :
    drawToken.run.Ensures Answered Post ↔ ∀ token, Answered .drawToken token → Post (.ok token) :=
  Iff.rfl

theorem getIdentity_ensures {Post : Except KNXVaultError MachineIdentity → Prop} (id : String) :
    (getIdentity id).run.Ensures Answered Post ↔
      ∀ answer, Answered (.getIdentity id) answer → Post answer := Iff.rfl

theorem saveToken_ensures {Post : Except KNXVaultError Unit → Prop} (record : ClientToken) :
    (saveToken record).run.Ensures Answered Post ↔
      ∀ answer, Answered (.saveToken record) answer → Post answer := Iff.rfl

theorem lift_ensures {α : Type} {Post : Except KNXVaultError α → Prop}
    (result : Except KNXVaultError α) :
    (lift result).run.Ensures Answered Post ↔ Post result := Iff.rfl

end Operations

variable {service} (enabled : service.nhi = true)

include enabled

/-- A revoked identity does not pass. -/
theorem checkIdentity_yields :
    Fallible.Yields (IdentityOp.ShowsRevoked id) (fun _ => False) (checkIdentity service id) := by
  rw [checkIdentity, if_pos enabled, Fallible.yields_outcome_bind, isRevoked,
    Fallible.ensures_bind, getIdentity_ensures]
  rintro (err | identity) shown
  · exact fun _ same => by cases same
  · have revoked : identity.revoked = true := shown rfl identity rfl
    dsimp only
    rw [revoked]
    exact fun _ same => by cases same

/-- No token for a revoked identity. -/
theorem login_refuses (defaultTTL : Int) (admitted : Except KNXVaultError Admission) :
    (login service defaultTTL admitted).run.Ensures (IdentityOp.ShowsRevoked id) fun result =>
      ¬ ((∃ admission, admitted = .ok admission ∧ admission.identity.id = id) ∧
        ∃ token, result = .ok token) := by
  cases admitted with
  | error err =>
    rintro ⟨⟨admission, impossible, -⟩, -⟩
    cases impossible
  | ok admission =>
    by_cases entering : admission.identity.id = id
    · subst entering
      have yields : Fallible.Yields (IdentityOp.ShowsRevoked admission.identity.id)
          (fun _ => False) (login service defaultTTL (.ok admission)) := by
        rw [login, Fallible.Yields, Fallible.ensures_bind, lift_ensures]
        refine (Fallible.yields_bind _ _).mpr ?_
        exact (checkIdentity_yields _ enabled).mono fun _ impossible => impossible.elim
      exact Program.Ensures.mono (fun result fails issued => issued.2.elim fails) yields
    · refine Program.Ensures.of_post ?_ _
      rintro result ⟨⟨_, same, entered⟩, -⟩
      cases same
      exact entering entered

/-- An identity that is recorded and not revoked passes. -/
theorem checkIdentity_ensures {Post : Except KNXVaultError Unit → Prop} (post : Post (.ok ())) :
    (checkIdentity service id).run.Ensures (IdentityOp.ShowsUnrevoked id) Post := by
  rw [checkIdentity, if_pos enabled, Fallible.ensures_bind, Fallible.ensures_outcome, isRevoked,
    Fallible.ensures_bind, getIdentity_ensures]
  rintro answer shown
  obtain ⟨identity, rfl, unrevoked⟩ := shown rfl
  dsimp only
  rw [unrevoked]
  exact post

theorem recordIdentity_ensures {Answered : (op : IdentityOp) → op.Answer → Prop}
    {Post : Except KNXVaultError Unit → Prop} (post : Post (.ok ())) (identity : MachineIdentity) :
    (recordIdentity service identity).run.Ensures Answered Post := by
  rw [recordIdentity, if_pos enabled, Fallible.ensures_bind, Fallible.ensures_outcome]
  exact Program.Ensures.of_post (fun _ => post) _

theorem login_ensures (defaultTTL : Int) (admission : Admission) :
    (login service defaultTTL (.ok admission)).run.Ensures
      (IdentityOp.ShowsUnrevoked admission.identity.id)
      fun result => ∃ token, result = .ok token := by
  rw [login, Fallible.ensures_bind, lift_ensures]
  dsimp only
  rw [Fallible.ensures_bind]
  refine checkIdentity_ensures _ enabled ?_
  dsimp only
  rw [Fallible.ensures_bind]
  refine recordIdentity_ensures enabled ?_ _
  dsimp only
  rw [Fallible.ensures_bind, now_ensures]
  rintro clock -
  dsimp only
  rw [create, Fallible.ensures_bind, drawToken_ensures]
  rintro token hashed
  dsimp only
  rw [Fallible.ensures_bind, now_ensures]
  rintro later -
  dsimp only
  rw [Fallible.ensures_bind, saveToken_ensures]
  rintro answer saved
  rw [saved (by rw [createdToken_id]; exact hashed)]
  exact ⟨_, rfl⟩

/-- No refusal of an identity that is recorded and not revoked. -/
theorem login_accepts (defaultTTL : Int) (admitted : Except KNXVaultError Admission) :
    (login service defaultTTL admitted).run.Ensures (IdentityOp.ShowsUnrevoked id) fun result =>
      ¬ ((∃ admission, admitted = .ok admission ∧ admission.identity.id = id) ∧
        ∃ err, result = .error err) := by
  by_cases entering : ∃ admission, admitted = .ok admission ∧ admission.identity.id = id
  · obtain ⟨admission, rfl, rfl⟩ := entering
    refine (login_ensures enabled defaultTTL admission).mono ?_
    rintro _ ⟨token, rfl⟩ ⟨-, err, same⟩
    cases same
  · exact Program.Ensures.of_post (fun _ refused => entering refused.1) _

omit enabled in
/-- The agent of a revoked identity gets no token. -/
theorem delegateAgent_yields (rbac : RBAC) (parent : Principal) (req : AgentDelegateRequest) :
    Fallible.Yields (IdentityOp.ShowsRevoked (nhiKey "agent" "" "" req.agentID)) (fun _ => False)
      (delegateAgent service rbac parent req) := by
  rw [delegateAgent, Fallible.Yields, Fallible.ensures_bind, lift_ensures]
  cases admitted : admitDelegation rbac parent req with
  | error err => exact fun _ same => by cases same
  | ok passed =>
    have named : req.agentID ≠ "" := by
      rintro unnamed
      rw [admitDelegation, if_pos unnamed] at admitted
      cases admitted
    dsimp only
    rw [Fallible.ensures_bind, createAgent, Fallible.ensures_bind, drawToken_ensures]
    rintro token -
    dsimp only
    rw [Fallible.ensures_bind, now_ensures]
    rintro clock -
    dsimp only
    rw [Fallible.ensures_bind, saveToken_ensures]
    intro answer refused
    exact absurd rfl (refused named)

/-! ### What is written -/

omit enabled

theorem recordIdentity_leavesFlag {identity : MachineIdentity}
    (unflagged : identity.revoked = false) :
    (recordIdentity service identity).run.Issues IdentityOp.LeavesFlag := by
  unfold recordIdentity
  split
  · exact Fallible.issues_bind (Fallible.issues_outcome ⟨trivial, fun _ =>
      ⟨unflagged, fun _ => trivial⟩⟩) fun _ => trivial
  · trivial

theorem login_leavesFlag (defaultTTL : Int) {admitted : Except KNXVaultError Admission}
    (unflagged : ∀ admission, admitted = .ok admission → admission.identity.revoked = false) :
    (login service defaultTTL admitted).run.Issues IdentityOp.LeavesFlag := by
  cases admitted with
  | error err => trivial
  | ok admission =>
    -- what was admitted is a value, so that the check is the first to perform anything
    change (checkIdentity service admission.identity.id >>= fun _ => _).run.Issues _
    refine Fallible.issues_bind ?_ fun _ => ?_
    · unfold checkIdentity
      split
      · refine Fallible.issues_bind (Fallible.issues_outcome ⟨trivial, ?_⟩) ?_
        · rintro (err | identity) <;> trivial
        · rintro (err | revoked | revoked) <;> trivial
      · trivial
    · refine Fallible.issues_bind (recordIdentity_leavesFlag (unflagged admission rfl)) fun _ => ?_
      refine ⟨trivial, fun clock => ⟨trivial, fun token => ⟨trivial, fun later => ?_⟩⟩⟩
      refine ⟨trivial, ?_⟩
      rintro (err | saved) <;> trivial

theorem delegateAgent_leavesFlag (rbac : RBAC) (parent : Principal) (req : AgentDelegateRequest) :
    (delegateAgent service rbac parent req).run.Issues IdentityOp.LeavesFlag := by
  unfold delegateAgent
  cases admitDelegation rbac parent req with
  | error err => trivial
  | ok passed =>
    change (createAgent parent req >>= fun _ => _).run.Issues _
    refine Fallible.issues_bind ⟨trivial, fun token => ⟨trivial, fun clock => ⟨trivial, ?_⟩⟩⟩
      fun record => Fallible.issues_bind (recordIdentity_leavesFlag rfl) fun _ => trivial
    rintro (err | saved) <;> trivial

end IdentityProgram

theorem admitKubernetes_unflagged {service : LoginService} {roles : RoleRepository}
    {defaultTTL : Int} {locked : Bool} {role jwtToken : String} {admission : Admission}
    (admitted : admitKubernetes service roles defaultTTL locked role jwtToken = .ok admission) :
    admission.identity.revoked = false := by
  unfold admitKubernetes at admitted
  iterate 3
    split at admitted
    · cases admitted
  obtain ⟨validated, -, admitted⟩ := bind_eq_ok admitted
  obtain ⟨stored, -, admitted⟩ := bind_eq_ok admitted
  split at admitted
  · cases admitted
  obtain ⟨bound, -, admitted⟩ := bind_eq_ok admitted
  dsimp only at admitted
  split at admitted
  · cases admitted
  · cases admitted
    rfl

theorem admitOIDC_unflagged {service : LoginService} {roles : RoleRepository} {locked : Bool}
    {role jwtToken : String} {admission : Admission}
    (admitted : admitOIDC service roles locked role jwtToken = .ok admission) :
    admission.identity.revoked = false := by
  unfold admitOIDC at admitted
  iterate 4
    split at admitted
    · cases admitted
  obtain ⟨stored, -, admitted⟩ := bind_eq_ok admitted
  iterate 2
    split at admitted
    · cases admitted
  obtain ⟨validated, -, admitted⟩ := bind_eq_ok admitted
  obtain ⟨checked, -, admitted⟩ := bind_eq_ok admitted
  cases admitted
  rfl

/-! ### The gate -/

section Gate

open Interleaving.Pool (step Performs)

variable (node : IdentityNode) (id : String)

theorem program_leavesFlag (call : IdentityCall) :
    ((identityNodes node).program call).Issues IdentityOp.LeavesFlag := by
  cases call with
  | loginKubernetes locked role jwtToken =>
    exact IdentityProgram.login_leavesFlag _ fun _ => admitKubernetes_unflagged
  | loginOIDC locked role jwtToken =>
    exact IdentityProgram.login_leavesFlag _ fun _ => admitOIDC_unflagged
  | delegateAgent parent req => exact IdentityProgram.delegateAgent_leavesFlag _ _ _
  | revoke other => exact ⟨trivial, fun _ => trivial⟩

variable {events : List (identityNodes node).Event}

/-- An identity that is revoked after a run was revoked before it, or by a
revocation in the run. -/
theorem revoked_earlier {stores : IdentityStores}
    (revoked : IdentityOp.IsRevoked id (run step ((identityNodes node).idle stores) events).state) :
    IdentityOp.IsRevoked id stores ∨
      ∃ before event after, events = before ++ event :: after ∧
        (run step ((identityNodes node).idle stores) before).pending event =
          some (.revokeIdentity id) := by
  by_cases initially : IdentityOp.IsRevoked id stores
  · exact .inl initially
  · obtain ⟨before, event, after, op, draw, split, performed, leaves, unset, set⟩ :=
      Interleaving.Pool.exists_operation_of_change
        (Interleaving.Pool.performs_of_issues (program_leavesFlag node) stores events)
        initially revoked
    obtain rfl := IdentityOp.eq_revokeIdentity_of_changed leaves unset set
    exact .inr ⟨before, event, after, split, performed⟩

variable {node} (enabled : node.service.nhi = true)

include enabled

/-- Once an identity has been refused, or a revocation has succeeded, it is revoked. -/
theorem isRevoked_of_returned_identity {stores : IdentityStores}
    (gated : AllSteps step (Performs IdentityOp.Gated) ((identityNodes node).idle stores) events)
    {place : Nat} {call : IdentityCall} {result : call.Result}
    (returned : (run step ((identityNodes node).idle stores) events).Returned place call result)
    (shown : call.ShowsRevoked node id result) :
    IdentityOp.IsRevoked id (run step ((identityNodes node).idle stores) events).state := by
  refine Interleaving.Pool.fact_of_returned (fun draw op stores => IdentityOp.isRevoked_kept)
    (fun draw op stores => IdentityOp.showsUnrevoked_of_exec) (fun call => ?_) gated returned shown
  cases call with
  | loginKubernetes locked role jwtToken => exact IdentityProgram.login_accepts id enabled _ _
  | loginOIDC locked role jwtToken => exact IdentityProgram.login_accepts id enabled _ _
  | delegateAgent parent req => exact Program.Ensures.of_post (fun _ shown => shown) _
  | revoke other => exact fun answer unrevoked shown => unrevoked shown.1 shown.2

/-- A revoked identity stays so, and gets no token by a call that starts later. -/
theorem not_issued_of_isRevoked {pool : (identityNodes node).Pool}
    (revoked : IdentityOp.IsRevoked id pool.state)
    (gated : AllSteps step (Performs IdentityOp.Gated) pool events) {place : Nat}
    (started : pool.calls.length ≤ place) {call : IdentityCall} {result : call.Result}
    (returned : (run step pool events).Returned place call result) :
    ¬ call.Issued node id result := by
  refine @Interleaving.Pool.post_of_fact (identityNodes node) _ _ _
    (fun call result => ¬ call.Issued node id result)
    (fun draw op stores => IdentityOp.isRevoked_kept)
    (fun draw op stores => IdentityOp.showsRevoked_of_isRevoked) (fun call => ?_) _ _ gated revoked
    _ started _ _ returned
  cases call with
  | loginKubernetes locked role jwtToken => exact IdentityProgram.login_refuses id enabled _ _
  | loginOIDC locked role jwtToken => exact IdentityProgram.login_refuses id enabled _ _
  | delegateAgent parent req =>
    by_cases same : nhiKey "agent" "" "" req.agentID = id
    · subst same
      exact Program.Ensures.mono (fun _ fails issued => issued.2.elim fails)
        (IdentityProgram.delegateAgent_yields node.rbac parent req)
    · exact Program.Ensures.of_post (fun _ issued => same issued.1) _
  | revoke other => exact Program.Ensures.of_post (fun _ issued => issued) _

/-- While identities are looked up only once recorded, and neither recorded anew
nor given an agent token once revoked: a login that is valid otherwise is refused
only if its identity has been revoked earlier, and an identity that is revoked
stays so and gets no token by a login or delegation that starts later. -/
theorem identity_gate (stores : IdentityStores) (events : List (identityNodes node).Event)
    (gated : AllSteps step (Performs IdentityOp.Gated) ((identityNodes node).idle stores)
      events) :
    (∀ place call result,
      (run step ((identityNodes node).idle stores) events).Returned place call result →
      call.ShowsRevoked node id result →
        IdentityOp.IsRevoked id (run step ((identityNodes node).idle stores) events).state ∧
        (IdentityOp.IsRevoked id stores ∨
          ∃ before event after, events = before ++ event :: after ∧
            (run step ((identityNodes node).idle stores) before).pending event =
              some (.revokeIdentity id))) ∧
    ∀ before after, events = before ++ after →
      IdentityOp.IsRevoked id (run step ((identityNodes node).idle stores) before).state →
        IdentityOp.IsRevoked id (run step ((identityNodes node).idle stores) events).state ∧
        ∀ place call result,
          (run step ((identityNodes node).idle stores) before).calls.length ≤ place →
          (run step ((identityNodes node).idle stores) events).Returned place call result →
            ¬ call.Issued node id result := by
  constructor
  · intro place call result returned shown
    have revoked := isRevoked_of_returned_identity id enabled gated returned shown
    exact ⟨revoked, revoked_earlier node id revoked⟩
  · rintro before after rfl revoked
    rw [AllSteps.append] at gated
    rw [run_append]
    refine ⟨Interleaving.Pool.fact_kept (fun draw op stores => IdentityOp.isRevoked_kept) gated.2
      revoked, fun place call result started returned => ?_⟩
    exact not_issued_of_isRevoked id enabled revoked gated.2 started returned

omit enabled

def sampleIdentityNode : IdentityNode where
  service := {
    validateKubernetesJWT := fun _ _ => .ok (⟨"ns", "app", "system:serviceaccount:ns:app"⟩, "app")
    oidc := none
    oidcTTL := 0
    numberAtLeast := fun _ _ => false
    nhi := true
    defaultPolicies := [] }
  roles := Table.empty.put {
    name := "reader", policies := ["reader"], boundServiceAccountNames := ["app"]
    boundServiceAccountNamespaces := ["ns"] } (by decide)
  rbac := ⟨.empty⟩
  ttl := 100

def appIdentity : MachineIdentity where
  id := "k8s_sa:ns:app"
  type := "k8s_sa"
  boundNamespace := "ns"
  boundName := "app"
  policies := ["reader"]

def appIdentityStores : IdentityStores := ⟨Table.empty.put appIdentity (by decide), Table.empty⟩

def drawnAt (instant : Int) : IdentityDraw := ⟨⟨instant, 0⟩, "hash", by decide⟩

def appLogin : IdentityCall := .loginKubernetes false "reader" "jwt"

theorem appLogin_enters : appLogin.Enters sampleIdentityNode "k8s_sa:ns:app" :=
  ⟨⟨appIdentity, "app", 100⟩, by decide +kernel, rfl⟩

/-- A revocation, and a login after it. -/
def revokedThenLogin : List (identityNodes sampleIdentityNode).Event :=
  [.start (.revoke "k8s_sa:ns:app"), .advance 0 (drawnAt 10)] ++
    [.start appLogin, .advance 1 (drawnAt 11)]

theorem identity_gate_app :
    IdentityOp.IsRevoked "k8s_sa:ns:app"
      (run step ((identityNodes sampleIdentityNode).idle appIdentityStores)
        revokedThenLogin).state ∧
    ¬ appLogin.Issued sampleIdentityNode "k8s_sa:ns:app"
      (failWith .forbidden "machine identity revoked") := by
  have gate := identity_gate "k8s_sa:ns:app" rfl appIdentityStores revokedThenLogin
    (by decide +kernel)
  refine ⟨(gate.1 1 appLogin _ rfl ⟨appLogin_enters, _, rfl⟩).1,
    (gate.2 _ _ rfl ⟨{ appIdentity with revoked := true }, by decide +kernel, rfl⟩).2 1 appLogin _
      (by decide) rfl⟩

def botDelegation : IdentityCall :=
  .delegateAgent { subject := "app", policies := ["reader"], tokenID := "parent" } {
    agentID := "bot", pathPrefix := "bot", allowedActions := ["read"], policies := ["reader"] }

/-- A delegation to an agent, and the revocation of its identity. -/
def delegatedThenRevoked : List (identityNodes sampleIdentityNode).Event :=
  .start botDelegation :: List.replicate 5 (.advance 0 (drawnAt 10)) ++
    [.start (.revoke "agent:bot"), .advance 1 (drawnAt 11)]

/-- A login has found its identity when another call revokes it. -/
def revokedDuringLogin : List (identityNodes sampleIdentityNode).Event :=
  [.start appLogin, .advance 0 (drawnAt 10), .start (.revoke "k8s_sa:ns:app"),
    .advance 1 (drawnAt 11)]

/-- The first login of an identity is refused though nothing was revoked. A second
delegation gives a revoked agent a token and clears the flag, and so does a login
that overlaps the revocation. -/
theorem identity_gate_bypassed :
    (appLogin.Enters sampleIdentityNode "k8s_sa:ns:app" ∧
      (run step ((identityNodes sampleIdentityNode).idle ⟨Table.empty, Table.empty⟩)
        [.start appLogin, .advance 0 (drawnAt 10)]).Returned 0 appLogin
        (.error {
          code := .unavailable, message := "identity check failed"
          cause := some (KNXVaultError.error {
            code := .notFound, message := "machine identity not found" }) })) ∧
    ((run step ((identityNodes sampleIdentityNode).idle ⟨Table.empty, Table.empty⟩)
        delegatedThenRevoked).Returned 1 (.revoke "agent:bot") (.ok ()) ∧
      ((run step ((identityNodes sampleIdentityNode).idle ⟨Table.empty, Table.empty⟩)
        (delegatedThenRevoked ++ .start botDelegation ::
          List.replicate 5 (.advance 2 (drawnAt 12)))).endsWith 2 fun call result =>
            match call, result with
            | .delegateAgent .., .ok token => token.agentID = "bot"
            | _, _ => false) = true ∧
      ((run step ((identityNodes sampleIdentityNode).idle ⟨Table.empty, Table.empty⟩)
        (delegatedThenRevoked ++ .start botDelegation ::
          List.replicate 5 (.advance 2 (drawnAt 12)))).state.identities.find "agent:bot").map
            (·.revoked) = some false) ∧
    ((run step ((identityNodes sampleIdentityNode).idle appIdentityStores)
        revokedDuringLogin).Returned 1 (.revoke "k8s_sa:ns:app") (.ok ()) ∧
      ((run step ((identityNodes sampleIdentityNode).idle appIdentityStores)
        (revokedDuringLogin ++ List.replicate 2 (.advance 0 (drawnAt 12)))).state.identities.find
          "k8s_sa:ns:app").map (·.revoked) = some false) :=
  ⟨⟨appLogin_enters, rfl⟩, ⟨rfl, by decide +kernel, by decide +kernel⟩, rfl, by decide +kernel⟩

end Gate

end KnxVault.Auth
