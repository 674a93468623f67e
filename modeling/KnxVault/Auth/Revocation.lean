import KnxVault.Auth.Token
import KnxVault.Std.Concurrent

/-!
# Token revocation under concurrency

Nodes that share one token repository run `Renew`, `Revoke` and `Authenticate` of
`internal/auth/token.go` at the same time, and register the configured root token
when they start (`internal/app/deps.go`). Every call of the repository is atomic,
nothing else is. Each node also keeps the tokens it has seen; with a repository
that map is written and never consulted.
-/

namespace KnxVault.Auth

open KnxVault.Std KnxVault.Domain KnxVault.Repository

inductive TokenOp where
  | now
  | get (id : String)
  | save (record : ClientToken)
  | revoke (id : String) (revokedAt : Time)

abbrev TokenOp.Answer : TokenOp → Type
  | now => Time
  | get _ => Except KNXVaultError ClientToken
  | save _ | revoke _ _ => Except KNXVaultError Unit

/-- An operation at the time that the clock shows. -/
def TokenOp.exec (clock : Time) : (op : TokenOp) → TokenRepository → op.Answer × TokenRepository
  | now, repo => (clock, repo)
  | get id, repo => (TokenRepository.get repo id, repo)
  | save record, repo => attempt (TokenRepository.save repo record) repo
  | revoke id revokedAt, repo => attempt (TokenRepository.revoke repo id revokedAt) repo

/-- A call on a token store, as the operations it performs. -/
abbrev TokenProgram := Program TokenOp TokenOp.Answer

namespace TokenProgram

def now : TokenProgram Time := Program.perform TokenOp.now

def get (id : String) : TokenProgram (Except KNXVaultError ClientToken) :=
  Program.perform (TokenOp.get id)

def save (record : ClientToken) : TokenProgram (Except KNXVaultError Unit) :=
  Program.perform (TokenOp.save record)

def revokeAt (id : String) (revokedAt : Time) : TokenProgram (Except KNXVaultError Unit) :=
  Program.perform (TokenOp.revoke id revokedAt)

/-- `ttl` is the default lifetime of the node's store. -/
def renew (ttl : Int) (id : String) (increment : Int) :
    TokenProgram (Except KNXVaultError ClientToken) := do
  match ← get id with
  | .error _ => pure (failWith .unauthorized "invalid token")
  | .ok record =>
    if record.revoked then pure (failWith .unauthorized "token revoked")
    else if !record.renewable then pure (failWith .validation "token is not renewable")
    else do
      let clock ← now
      if clock.utc.after record.expiresAt then pure (failWith .unauthorized "token expired")
      else do
        let clock ← now
        let record := renewedToken ttl clock increment record
        -- the whole record is written back, with the flag as it was read
        match ← save record with
        | .error err => pure (.error err)
        | .ok () => pure (.ok record)

def revoke (id : String) : TokenProgram (Except KNXVaultError Unit) := do
  let clock ← now
  match ← revokeAt id clock.utc with
  | .error err =>
    if err.code = .notFound then pure (failWith .unauthorized "invalid token")
    else pure (.error err)
  | .ok () => pure (.ok ())

def authenticate (id : String) : TokenProgram (Except KNXVaultError ClientToken) := do
  match ← get id with
  | .error _ => pure (failWith .unauthorized "invalid token")
  | .ok record =>
    if record.revoked then pure (failWith .unauthorized "token revoked")
    else do
      let clock ← now
      if clock.utc.after record.expiresAt then pure (failWith .unauthorized "token expired")
      else pure (.ok record)

/-- The lifetime of a bootstrap token unless configured, 72 hours. -/
def defaultRootTokenTTL : Int := hours 72

def registerRootTokenTTL (id : String) (policies : List String) (ttl : Int) :
    TokenProgram (Except KNXVaultError Unit) := do
  let clock ← now
  save {
    id, policies
    subject := "root"
    expiresAt := clock.utc.add (if ttl ≤ 0 then defaultRootTokenTTL else ttl) }

/-! ### Calls that run alone -/

section Alone

variable (clock : Time) (store : TokenStore) (id : String)

/-- What a call of the store answers, and the repository it leaves. -/
def settled {α : Type} (result : Except KNXVaultError (TokenStore × α)) :
    Except KNXVaultError α × TokenRepository :=
  match result with
  | .ok (later, value) => (.ok value, later.repo)
  | .error err => (.error err, store.repo)

@[simp] theorem now_alone (repo : TokenRepository) :
    now.alone (TokenOp.exec clock) repo = (clock, repo) := rfl

@[simp] theorem get_alone (repo : TokenRepository) :
    (get id).alone (TokenOp.exec clock) repo = (TokenRepository.get repo id, repo) := rfl

@[simp] theorem save_alone (record : ClientToken) (repo : TokenRepository) :
    (save record).alone (TokenOp.exec clock) repo =
      attempt (TokenRepository.save repo record) repo := rfl

@[simp] theorem revokeAt_alone (revokedAt : Time) (repo : TokenRepository) :
    (revokeAt id revokedAt).alone (TokenOp.exec clock) repo =
      attempt (TokenRepository.revoke repo id revokedAt) repo := rfl

theorem renew_alone (increment : Int) :
    (renew store.ttl id increment).alone (TokenOp.exec clock) store.repo =
      settled store (store.renew clock id increment) := by
  simp only [renew, Program.alone_bind, get_alone, TokenStore.renew]
  cases TokenRepository.get store.repo id with
  | error err => rfl
  | ok record =>
    dsimp only
    split
    · rfl
    split
    · rfl
    rw [Program.alone_bind, now_alone]
    dsimp only
    split
    · rfl
    rw [Program.alone_bind, now_alone, Program.alone_bind, save_alone, TokenStore.save]
    dsimp only
    cases TokenRepository.save store.repo _ <;> rfl

theorem revoke_alone :
    (revoke id).alone (TokenOp.exec clock) store.repo =
      settled store ((store.revoke clock id).map fun later => (later, ())) := by
  simp only [revoke, Program.alone_bind, now_alone, revokeAt_alone, TokenStore.revoke]
  cases TokenRepository.revoke store.repo id clock.utc with
  | ok later => rfl
  | error err =>
    dsimp only [attempt_error]
    split <;> rfl

theorem authenticate_alone :
    (authenticate id).alone (TokenOp.exec clock) store.repo =
      (store.authenticate clock id, store.repo) := by
  simp only [authenticate, Program.alone_bind, get_alone, TokenStore.authenticate]
  cases TokenRepository.get store.repo id with
  | error err => rfl
  | ok record =>
    dsimp only
    split
    · rfl
    rw [Program.alone_bind, now_alone]
    dsimp only
    split <;> rfl

end Alone

end TokenProgram

/-! ### Calls of several nodes -/

inductive NodeCall where
  | renew (ttl : Int) (id : String) (increment : Int)
  | revoke (id : String)
  | authenticate (id : String)
  | restart

abbrev NodeCall.Result : NodeCall → Type
  | renew .. | authenticate _ => Except KNXVaultError ClientToken
  | revoke _ | restart => Except KNXVaultError Unit

structure RootToken where
  id : String
  ttl : Int

/-- What a node does to the tokens when it starts. Its earlier calls are among
those that never advance again. -/
def RootToken.register : Option RootToken → TokenProgram (Except KNXVaultError Unit)
  | none => pure (.ok ())
  | some root =>
    let ttl := if root.ttl ≤ 0 then TokenProgram.defaultRootTokenTTL else root.ttl
    TokenProgram.registerRootTokenTTL root.id ["admin"] ttl

abbrev tokenNodes (root : Option RootToken) : Interleaving where
  State := TokenRepository
  Op := TokenOp
  Answer := TokenOp.Answer
  Draw := Time
  exec := TokenOp.exec
  Call := NodeCall
  Result := NodeCall.Result
  program
    | .renew ttl id increment => TokenProgram.renew ttl id increment
    | .revoke id => TokenProgram.revoke id
    | .authenticate id => TokenProgram.authenticate id
    | .restart => RootToken.register root

namespace NodeCall

variable (root : Option RootToken) (id : String)

/-- The call revoked the token. -/
def Revokes : (call : NodeCall) → call.Result → Prop
  | revoke other, result => other = id ∧ result = .ok ()
  | _, _ => False

/-- A call that asks for the token fails. -/
def Refuses : (call : NodeCall) → call.Result → Prop
  | renew _ other _, result | authenticate other, result =>
    other = id → ∃ err, result = .error err
  | _, _ => True

end NodeCall

namespace TokenOp

variable (id : String)

/-- No record is written over one that is revoked. -/
def Spares (repo : TokenRepository) : TokenOp → Prop
  | save record => record.id = id → ∀ stored ∈ repo.find id, stored.revoked = false
  | _ => True

instance (repo : TokenRepository) : (op : TokenOp) → Decidable (Spares id repo op)
  | save _ => inferInstanceAs (Decidable (_ → _))
  | now | get _ | revoke _ _ => isTrue trivial

def IsRevoked (repo : TokenRepository) : Prop :=
  ∃ record, repo.find id = some record ∧ record.revoked = true

/-- The repository does not revoke the token. -/
def ShowsUnrevoked : (op : TokenOp) → op.Answer → Prop
  | revoke other _, answer => other = id → answer ≠ .ok ()
  | _, _ => True

/-- The token is only ever read with its flag set. -/
def ShowsRevoked : (op : TokenOp) → op.Answer → Prop
  | get other, answer => other = id → ∀ record, answer = .ok record → record.revoked = true
  | _, _ => True

variable {id} {repo : TokenRepository}

theorem isRevoked_of_revoke {later : TokenRepository} {revokedAt : Time}
    (done : TokenRepository.revoke repo id revokedAt = .ok later) : IsRevoked id later := by
  obtain ⟨record, found, -⟩ := changeRow_ok_iff.mp done
  refine ⟨{ record with revoked := true, expiresAt := revokedAt }, ?_, rfl⟩
  rw [find_of_changeRow done fun _ => rfl, if_pos rfl, found, Option.map_some]

variable {clock : Time} {op : TokenOp}

theorem showsUnrevoked_of_exec (unrevoked : ¬ IsRevoked id (op.exec clock repo).2) :
    ShowsUnrevoked id op (op.exec clock repo).1 := by
  cases op with
  | revoke other revokedAt =>
    rintro rfl answered
    cases result : TokenRepository.revoke repo other revokedAt with
    | ok later =>
      simp only [exec, result, attempt_ok] at unrevoked
      exact unrevoked (isRevoked_of_revoke result)
    | error err =>
      simp only [exec, result, attempt_error] at answered
      cases answered
  | now | get _ | save _ => trivial

theorem isRevoked_kept (spares : Spares id repo op) (revoked : IsRevoked id repo) :
    IsRevoked id (op.exec clock repo).2 := by
  obtain ⟨record, found, flagged⟩ := revoked
  cases op with
  | now => exact ⟨record, found, flagged⟩
  | get _ => exact ⟨record, found, flagged⟩
  | save written =>
    have elsewhere : written.id ≠ id := by
      intro same
      have unrevoked := spares same record found
      rw [flagged] at unrevoked
      cases unrevoked
    simp only [exec, TokenRepository.save]
    split
    · exact ⟨record, found, flagged⟩
    · refine ⟨record, ?_, flagged⟩
      rw [attempt_ok, Table.find_put, if_neg elsewhere]
      exact found
  | revoke other revokedAt =>
    cases result : TokenRepository.revoke repo other revokedAt with
    | error err =>
      simp only [exec, result, attempt_error]
      exact ⟨record, found, flagged⟩
    | ok later =>
      simp only [exec, result, attempt_ok]
      by_cases same : other = id
      · subst same
        exact isRevoked_of_revoke result
      · refine ⟨record, ?_, flagged⟩
        rw [find_of_changeRow result fun _ => rfl, if_neg same]
        exact found

theorem showsRevoked_of_isRevoked (revoked : IsRevoked id repo) :
    ShowsRevoked id op (op.exec clock repo).1 := by
  obtain ⟨record, found, flagged⟩ := revoked
  cases op with
  | get other =>
    rintro rfl shown answered
    simp only [exec, TokenRepository.get, getRow, found, Except.ok.injEq] at answered
    rw [← answered]
    exact flagged
  | now | save _ | revoke _ _ => trivial

end TokenOp

namespace TokenProgram

/-! ### What the calls conclude from the answers -/

section Operations

variable {Answered : (op : TokenOp) → op.Answer → Prop}

@[simp] theorem now_ensures {Post : Time → Prop} :
    now.Ensures Answered Post ↔ ∀ clock, Answered .now clock → Post clock := Iff.rfl

@[simp] theorem get_ensures {Post : Except KNXVaultError ClientToken → Prop} (id : String) :
    (get id).Ensures Answered Post ↔ ∀ answer, Answered (.get id) answer → Post answer := Iff.rfl

@[simp] theorem revokeAt_ensures {Post : Except KNXVaultError Unit → Prop} (id : String)
    (revokedAt : Time) :
    (revokeAt id revokedAt).Ensures Answered Post ↔
      ∀ answer, Answered (.revoke id revokedAt) answer → Post answer := Iff.rfl

end Operations

theorem renew_refuses (ttl : Int) (id : String) (increment : Int) :
    (renew ttl id increment).Ensures (TokenOp.ShowsRevoked id)
      fun result => ∃ err, result = .error err := by
  rw [renew, Program.ensures_bind, get_ensures]
  rintro (err | record) shown
  · exact ⟨_, rfl⟩
  · have revoked : record.revoked = true := shown rfl record rfl
    dsimp only
    rw [if_pos revoked]
    exact ⟨_, rfl⟩

theorem authenticate_refuses (id : String) :
    (authenticate id).Ensures (TokenOp.ShowsRevoked id)
      fun result => ∃ err, result = .error err := by
  rw [authenticate, Program.ensures_bind, get_ensures]
  rintro (err | record) shown
  · exact ⟨_, rfl⟩
  · have revoked : record.revoked = true := shown rfl record rfl
    dsimp only
    rw [if_pos revoked]
    exact ⟨_, rfl⟩

theorem revoke_revokes (id : String) :
    (revoke id).Ensures (TokenOp.ShowsUnrevoked id) fun result => result ≠ .ok () := by
  simp only [revoke, Program.ensures_bind, now_ensures, revokeAt_ensures]
  rintro clock - (err | done) unrevoked
  · dsimp only
    split <;> exact fun returned => by cases returned
  · exact absurd rfl (unrevoked rfl)

end TokenProgram

section Permanence

open Interleaving.Pool (step Performs)

variable (root : Option RootToken) (id : String)

/-- A token that a call has revoked stays revoked as long as no record is written
over the revoked one. -/
theorem isRevoked_of_returned {repo : TokenRepository} {events : List (tokenNodes root).Event}
    (spares : AllSteps step (Performs (TokenOp.Spares id)) ((tokenNodes root).idle repo) events)
    {place : Nat}
    (returned : (run step ((tokenNodes root).idle repo) events).Returned place (.revoke id)
      (.ok ())) :
    TokenOp.IsRevoked id (run step ((tokenNodes root).idle repo) events).state := by
  refine Interleaving.Pool.fact_of_returned (fun clock op repo => TokenOp.isRevoked_kept)
    (fun clock op repo _ => TokenOp.showsUnrevoked_of_exec) (fun call => ?_) spares returned
    (show NodeCall.Revokes id (.revoke id) (.ok ()) from ⟨rfl, rfl⟩)
  cases call with
  | revoke other =>
    by_cases same : other = id
    · subst same
      exact (TokenProgram.revoke_revokes other).mono fun _ unrevoked revokes => unrevoked revokes.2
    · exact Program.Ensures.of_post (fun _ revokes => same revokes.1) _
  | renew | authenticate | restart =>
    exact Program.Ensures.of_post (fun _ revokes => revokes) _

theorem refuses_of_isRevoked {pool : (tokenNodes root).Pool}
    (revoked : TokenOp.IsRevoked id pool.state) {events : List (tokenNodes root).Event}
    (spares : AllSteps step (Performs (TokenOp.Spares id)) pool events) {place : Nat}
    (started : pool.calls.length ≤ place) {call : NodeCall} {result : call.Result}
    (returned : (run step pool events).Returned place call result) : call.Refuses id result := by
  refine Interleaving.Pool.post_of_fact (fun clock op repo => TokenOp.isRevoked_kept)
    (fun clock op repo _ => TokenOp.showsRevoked_of_isRevoked) (fun call => ?_) spares revoked
    started returned
  cases call with
  | renew ttl other increment =>
    by_cases same : other = id
    · subst same
      exact (TokenProgram.renew_refuses ttl other increment).mono fun _ failed _ => failed
    · exact Program.Ensures.of_post (fun _ asked => absurd asked same) _
  | authenticate other =>
    by_cases same : other = id
    · subst same
      exact (TokenProgram.authenticate_refuses other).mono fun _ failed _ => failed
    · exact Program.Ensures.of_post (fun _ asked => absurd asked same) _
  | revoke | restart => exact Program.Ensures.of_post (fun _ => trivial) _

/-- Once a revocation has returned, no authentication and no renewal that starts
later succeeds, in every run that writes no record of the token over a revoked
one. -/
theorem revocation_permanent (repo : TokenRepository)
    (before after : List (tokenNodes root).Event)
    (spares : AllSteps step (Performs (TokenOp.Spares id)) ((tokenNodes root).idle repo)
      (before ++ after))
    (place : Nat)
    (revoked : (run step ((tokenNodes root).idle repo) before).Returned place (.revoke id)
      (.ok ()))
    (later : Nat)
    (started : (run step ((tokenNodes root).idle repo) before).calls.length ≤ later)
    (record : ClientToken) :
    ¬ (run step ((tokenNodes root).idle repo) (before ++ after)).Returned later
        (.authenticate id) (.ok record) ∧
      ∀ ttl increment,
        ¬ (run step ((tokenNodes root).idle repo) (before ++ after)).Returned later
          (.renew ttl id increment) (.ok record) := by
  rw [AllSteps.append] at spares
  rw [run_append]
  have lasting := isRevoked_of_returned root id spares.1 revoked
  constructor
  · intro returned
    obtain ⟨err, failed⟩ := refuses_of_isRevoked root id lasting spares.2 started returned rfl
    cases failed
  · intro ttl increment returned
    obtain ⟨err, failed⟩ := refuses_of_isRevoked root id lasting spares.2 started returned rfl
    cases failed

def renewableToken : ClientToken where
  id := "app"
  subject := "app"
  policies := ["reader"]
  expiresAt := ⟨100, 0⟩
  renewable := true

def renewableTokens : TokenRepository := Table.empty.put renewableToken (by decide)

theorem revocation_permanent_app :
    ¬ (run step ((tokenNodes none).idle renewableTokens)
        ([.start (.revoke "app"), .advance 0 ⟨10, 0⟩, .advance 0 ⟨10, 0⟩] ++
          [.start (.authenticate "app"), .advance 1 ⟨11, 0⟩])).Returned 1
        (.authenticate "app") (.ok renewableToken) :=
  (revocation_permanent none "app" renewableTokens
    [.start (.revoke "app"), .advance 0 ⟨10, 0⟩, .advance 0 ⟨10, 0⟩]
    [.start (.authenticate "app"), .advance 1 ⟨11, 0⟩] (by decide +kernel) 0 rfl 1 (by decide)
    renewableToken).1

/-- A renewal has read the token when another call revokes it. -/
def revokedDuringRenewal : List (tokenNodes none).Event :=
  [.start (.renew 50 "app" 0), .advance 0 ⟨10, 0⟩, .advance 0 ⟨10, 0⟩, .advance 0 ⟨10, 0⟩,
    .start (.revoke "app"), .advance 1 ⟨11, 0⟩, .advance 1 ⟨11, 0⟩]

/-- A node has registered the root token and it is revoked. -/
def revokedRoot : List (tokenNodes (some ⟨"root", 50⟩)).Event :=
  [.start .restart, .advance 0 ⟨10, 0⟩, .advance 0 ⟨10, 0⟩,
    .start (.revoke "root"), .advance 1 ⟨11, 0⟩, .advance 1 ⟨11, 0⟩]

/-- The renewal writes the token back, and a restart registers the root token
again; a later authentication accepts either. -/
theorem revocation_undone :
    ((run step ((tokenNodes none).idle renewableTokens) revokedDuringRenewal).Returned 1
        (.revoke "app") (.ok ()) ∧
      (run step ((tokenNodes none).idle renewableTokens)
        (revokedDuringRenewal ++ [.advance 0 ⟨12, 0⟩, .start (.authenticate "app"),
          .advance 2 ⟨13, 0⟩, .advance 2 ⟨13, 0⟩])).Returned 2
        (.authenticate "app") (.ok { renewableToken with expiresAt := ⟨60, 0⟩ })) ∧
    ((run step ((tokenNodes (some ⟨"root", 50⟩)).idle Table.empty) revokedRoot).Returned 1
        (.revoke "root") (.ok ()) ∧
      (run step ((tokenNodes (some ⟨"root", 50⟩)).idle Table.empty)
        (revokedRoot ++ [.start .restart, .advance 2 ⟨12, 0⟩, .advance 2 ⟨12, 0⟩,
          .start (.authenticate "root"), .advance 3 ⟨13, 0⟩, .advance 3 ⟨13, 0⟩])).Returned 3
        (.authenticate "root")
        (.ok { id := "root", subject := "root", policies := ["admin"], expiresAt := ⟨62, 0⟩ })) :=
  ⟨⟨rfl, rfl⟩, rfl, rfl⟩

end Permanence

end KnxVault.Auth
