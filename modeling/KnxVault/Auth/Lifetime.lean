import KnxVault.Auth.Agent
import KnxVault.Auth.Login

/-!
# The lifetime of a token

Every way of creating a token has a cap on how long the token may live, and a
renewal keeps to the latest expiry in the record. The caps are computed apart
from each other: a default that replaces a duration that is not positive comes
after the check against the cap.
-/

namespace KnxVault.Auth

open KnxVault.Std KnxVault.Domain KnxVault.Repository

namespace TokenStore

theorem lifetime_pos (store : TokenStore) : 0 < store.lifetime := by
  unfold lifetime
  split
  · decide
  · omega

/-- The lifetime that an administrator's request for `ttl` leads to. -/
def requestedTTL (store : TokenStore) (ttl : Int) : Int :=
  let capped := if ttl > maxClientTokenTTL then maxClientTokenTTL else ttl
  -- the default is not capped
  if capped ≤ 0 then store.lifetime else capped

def createToken (store : TokenStore) (clock : Time) (id subject : String)
    (policies : List String) (ttl : Int) (renewable : Bool) :
    Except KNXVaultError (TokenStore × ClientToken) :=
  let subject := if subject = "" then "token" else subject
  if policies = [] then failWith .validation "policies are required"
  else
    let ttl := store.requestedTTL ttl
    store.create clock id subject policies ttl renewable (clock.utc.add ttl)

theorem requestedTTL_pos (store : TokenStore) (ttl : Int) : 0 < store.requestedTTL ttl := by
  have positive := store.lifetime_pos
  have cap : 0 < maxClientTokenTTL := by decide
  simp only [requestedTTL]
  split <;> split <;> omega

theorem requestedTTL_le_iff (store : TokenStore) (ttl : Int) :
    store.requestedTTL ttl ≤ maxClientTokenTTL ↔
      0 < ttl ∨ store.lifetime ≤ maxClientTokenTTL := by
  have positive : 0 < maxClientTokenTTL := by decide
  simp only [requestedTTL]
  split <;> split <;> omega

/-! ### Created and renewed records -/

variable {store : TokenStore} {clock : Time} {id : String}

/-- A created token is stored, and its latest expiry is set unless it is zero. -/
theorem create_ok {later : TokenStore} {maxExpiresAt : Time} {subject : String}
    {policies : List String} {ttl : Int} {renewable : Bool} {record : ClientToken}
    (created : store.create clock id subject policies ttl renewable maxExpiresAt =
      .ok (later, record)) :
    later.repo.find id = some record ∧ record.revoked = false ∧ record.renewable = renewable ∧
      record.maxExpiresAt.instant = maxExpiresAt.instant ∧
      record.expiresAt.instant =
        let expiry := clock.instant + if ttl ≤ 0 then store.ttl else ttl
        if maxExpiresAt.instant = 0 then expiry else min expiry maxExpiresAt.instant := by
  unfold create createdToken at created
  obtain ⟨saved, saving, ended⟩ := bind_eq_ok created
  cases ended
  obtain ⟨named, rfl⟩ := save_ok_iff.mp saving
  by_cases unset : maxExpiresAt.isZero = true
  · have zero : maxExpiresAt.instant = 0 := of_decide_eq_true unset
    simp only [unset, if_true, zero]
    exact ⟨Table.find_put_self _ _ _, trivial, trivial, trivial, rfl⟩
  · have nonzero : maxExpiresAt.instant ≠ 0 := fun zero => unset (decide_eq_true zero)
    simp only [if_neg unset, if_neg nonzero]
    refine ⟨Table.find_put_self _ _ _, trivial, trivial, trivial, ?_⟩
    by_cases late : (clock.utc.add (if ttl ≤ 0 then store.ttl else ttl)).after maxExpiresAt = true
    · have past := of_decide_eq_true late
      rw [if_pos late]
      exact (min_eq_right past.le).symm
    · have within := of_decide_eq_false (Bool.not_eq_true _ ▸ late)
      rw [if_neg late]
      exact (min_eq_left (not_lt.mp within)).symm

/-- A renewal changes the expiry of a renewable record. -/
theorem renew_ok {later : TokenStore} {increment : Int} {renewed : ClientToken}
    (done : store.renew clock id increment = .ok (later, renewed)) :
    ∃ record, ∃ named : renewed.id ≠ "", store.repo.find id = some record ∧
      record.renewable = true ∧
      renewed = renewedToken store.ttl clock increment record ∧
      later = { store with repo := store.repo.put renewed named } := by
  unfold renew at done
  split at done
  · cases done
  · rename_i record got
    split at done
    · cases done
    split at done
    · cases done
    rename_i renewable
    split at done
    · cases done
    obtain ⟨saved, saving, ended⟩ := bind_eq_ok done
    cases ended
    obtain ⟨named, rfl⟩ := save_ok_iff.mp saving
    exact ⟨record, named, getRow_ok_iff.mp got, by simpa using renewable, rfl, rfl⟩

theorem renew_of_find {record : ClientToken} (found : store.repo.find id = some record)
    (live : record.revoked = false) (renewable : record.renewable = true)
    (current : clock.utc.after record.expiresAt = false) (increment : Int) :
    ∃ named : (renewedToken store.ttl clock increment record).id ≠ "",
      store.renew clock id increment = .ok
        ({ store with
          repo := store.repo.put (renewedToken store.ttl clock increment record) named },
          renewedToken store.ttl clock increment record) := by
  have got : TokenRepository.get store.repo id = .ok record := getRow_ok_iff.mpr found
  unfold renew
  simp only [got]
  rw [if_neg (by simp [live]), if_neg (by simp [renewable]), if_neg (by simp [current])]
  have named : record.id ≠ "" := store.repo.valid found
  exact ⟨named, @save_pure_eq store (renewedToken store.ttl clock increment record) named⟩

end TokenStore

/-! ### Sequences of renewals -/

structure RenewCall where
  clock : Time
  id : String
  increment : Int

/-- A renewal that is refused leaves the store as it is. -/
def TokenStore.afterRenew (store : TokenStore) (call : RenewCall) : TokenStore :=
  match store.renew call.clock call.id call.increment with
  | .ok (later, _) => later
  | .error _ => store

/-- A token does not authenticate after the deadline, nor does it expire later. -/
structure TokenStore.EndsBy (store : TokenStore) (id : String) (deadline : Int) : Prop where
  authenticates : ∀ now record, store.authenticate now id = .ok record → now.instant ≤ deadline
  expires : ∀ record, store.repo.find id = some record → record.expiresAt.instant ≤ deadline

/-- Neither the expiry of a record nor any that a renewal gives it is after the
deadline. -/
structure Capped (deadline : Int) (record : ClientToken) : Prop where
  expires : record.expiresAt.instant ≤ deadline
  limited : record.renewable = true →
    record.maxExpiresAt.instant ≠ 0 ∧ record.maxExpiresAt.instant ≤ deadline

variable {deadline : Int} {record : ClientToken}

theorem capped_renewed (capped : Capped deadline record) (renewable : record.renewable = true)
    (store : TokenStore) (clock : Time) (increment : Int) :
    Capped deadline (renewedToken store.ttl clock increment record) := by
  obtain ⟨nonzero, within⟩ := capped.limited renewable
  refine ⟨?_, capped.limited⟩
  have set : record.maxExpiresAt.isZero = false := decide_eq_false nonzero
  simp only [renewedToken, renewedExpiry, set]
  generalize clock.utc.add (if increment ≤ 0 then store.ttl else increment) = expiry
  split
  · exact within
  · rename_i early
    have notLate : ¬ record.maxExpiresAt.instant < expiry.instant :=
      fun late => early ⟨rfl, decide_eq_true late⟩
    omega

variable {store : TokenStore} {id : String}

/-- No renewal takes a capped token past its deadline. -/
theorem capped_afterRenew
    (capped : ∀ record, store.repo.find id = some record → Capped deadline record)
    (call : RenewCall) :
    ∀ record, (store.afterRenew call).repo.find id = some record → Capped deadline record := by
  unfold TokenStore.afterRenew
  cases done : store.renew call.clock call.id call.increment with
  | error err => exact capped
  | ok result =>
    obtain ⟨later, renewed⟩ := result
    obtain ⟨before, named, found, renewable, rfl, rfl⟩ := TokenStore.renew_ok done
    intro record stored
    rw [Table.find_put] at stored
    split at stored
    · rename_i same
      cases stored
      have key : before.id = call.id := store.repo.key_of_find found
      have named : call.id = id := key.symm.trans same
      exact capped_renewed (capped before (named ▸ found)) renewable _ _ _
    · exact capped record stored

theorem endsBy_of_capped
    (capped : ∀ record, store.repo.find id = some record → Capped deadline record) :
    store.EndsBy id deadline := by
  refine ⟨fun now record authenticated => ?_, fun record found => (capped record found).expires⟩
  obtain ⟨found, -, current⟩ := (TokenStore.authenticate_ok_iff now).mp authenticated
  have notPast : ¬ record.expiresAt.instant < now.instant := of_decide_eq_false current
  have expires := (capped record found).expires
  omega

/-- A renewal at the moment of the expiry reaches past any deadline that the
latest expiry does not keep to. -/
theorem exists_renew_past (found : store.repo.find id = some record) (live : record.revoked = false)
    (renewable : record.renewable = true)
    (unlimited : record.maxExpiresAt.instant = 0 ∨ deadline < record.maxExpiresAt.instant) :
    ∃ call : RenewCall, ∃ renewed, (store.afterRenew call).repo.find id = some renewed ∧
      deadline < renewed.expiresAt.instant := by
  have current : record.expiresAt.utc.after record.expiresAt = false :=
    decide_eq_false (lt_irrefl record.expiresAt.instant)
  obtain ⟨named, done⟩ := TokenStore.renew_of_find found live renewable current
    (max 1 (deadline + 1 - record.expiresAt.instant))
  refine ⟨⟨record.expiresAt, id, max 1 (deadline + 1 - record.expiresAt.instant)⟩,
    renewedToken store.ttl record.expiresAt
      (max 1 (deadline + 1 - record.expiresAt.instant)) record,
    ?_, ?_⟩
  · unfold TokenStore.afterRenew
    rw [done]
    have key : record.id = id := store.repo.key_of_find found
    rw [Table.find_put]
    exact if_pos key
  · have positive : ¬ max 1 (deadline + 1 - record.expiresAt.instant) ≤ 0 := by omega
    simp only [renewedToken, renewedExpiry, if_neg positive]
    split
    · rename_i late
      rcases unlimited with zero | past
      · have unset : record.maxExpiresAt.isZero = true := decide_eq_true zero
        simp [unset] at late
      · exact past
    · show deadline < record.expiresAt.instant + max 1 (deadline + 1 - record.expiresAt.instant)
      omega

/-- A token keeps to its deadline under all renewals if its record is capped. -/
theorem endsBy_iff_capped (found : store.repo.find id = some record)
    (live : record.revoked = false) :
    (∀ calls, (run TokenStore.afterRenew store calls).EndsBy id deadline) ↔
      Capped deadline record := by
  constructor
  · intro keeps
    refine ⟨(keeps []).expires record found, fun renewable => ?_⟩
    by_contra unlimited
    obtain ⟨call, renewed, stored, past⟩ :=
      @exists_renew_past deadline _ _ _ found live renewable (by omega)
    exact absurd ((keeps [call]).expires renewed stored) (not_le.mpr past)
  · intro capped calls
    have initial : ∀ other, store.repo.find id = some other → Capped deadline other := by
      intro other stored
      cases found.symm.trans stored
      exact capped
    exact endsBy_of_capped (@run_invariant _ _ _ _
      (fun reached : TokenStore =>
        ∀ other, reached.repo.find id = some other → Capped deadline other)
      (fun _ call held => capped_afterRenew held call) calls initial)

/-! ### The caps at creation -/

/-- A way of creating a token. -/
inductive Creation where
  | createToken (subject : String) (policies : List String) (ttl : Int) (renewable : Bool)
  | issue (subject : String) (policies : List String)
  | loginOIDC (locked : Bool) (role jwtToken : String)
  | delegateAgent (parent : Principal) (req : AgentDelegateRequest)

namespace Creation

/-- The token store afterwards and the new record. -/
def perform (rbac : RBAC) (service : LoginService) (state : LoginState) (clock : Time)
    (id : String) : Creation → Except KNXVaultError (TokenStore × ClientToken)
  | createToken subject policies ttl renewable =>
    state.tokens.createToken clock id subject policies ttl renewable
  | issue subject policies => state.tokens.issue clock id subject policies
  | loginOIDC locked role jwtToken => do
    let (later, record) ← Auth.loginOIDC service state clock locked id role jwtToken
    pure (later.tokens, record)
  | delegateAgent parent req => do
    let delegation ← Auth.delegateAgent rbac state.tokens clock id parent req
    pure (delegation.store, delegation.record)

/-- The OIDC configuration of a stored role. -/
def oidcConfig (roles : RoleRepository) (role : String) : Option OIDCConfig :=
  (roles.find role).bind fun stored => stored.oidc

/-- The cap on the lifetime of the token, in nanoseconds. A role without a positive
`max_ttl` sets none. -/
def cap (state : LoginState) : Creation → Option Int
  | createToken .. => some TokenStore.maxClientTokenTTL
  | issue .. => some state.tokens.lifetime
  | loginOIDC _ role _ =>
    match oidcConfig state.roles role with
    | none => none
    | some cfg => if 0 < cfg.maxTTL then some (cfg.maxTTL * nanosecondsPerSecond) else none
  | delegateAgent .. => some maxAgentTTL

/-- The server's defaults fit under the cap, and the latest expiry is not the zero
time, which a record takes for unset. -/
def DefaultsFit (service : LoginService) (state : LoginState) (clock : Time) : Creation → Prop
  | createToken _ _ ttl renewable =>
    (0 < ttl ∨ state.tokens.lifetime ≤ TokenStore.maxClientTokenTTL) ∧
      (renewable = true → clock.instant + state.tokens.requestedTTL ttl ≠ 0)
  | issue .. => clock.instant + state.tokens.lifetime ≠ 0
  | loginOIDC _ role _ => ∀ cfg ∈ oidcConfig state.roles role,
    (0 < service.oidcTTL ∨ hours 1 ≤ cfg.maxTTL * nanosecondsPerSecond) ∧
      clock.instant + oidcTTL cfg service.oidcTTL ≠ 0
  | delegateAgent .. => True

end Creation

/-- The record of a token that is created to live for `ttl` at most. -/
theorem capped_create_iff {later : TokenStore} {clock : Time} {subject : String}
    {policies : List String} {ttl cap : Int} {renewable : Bool}
    (created : store.create clock id subject policies ttl renewable (clock.utc.add ttl) =
      .ok (later, record)) (lasting : 0 < ttl ∨ renewable = true) :
    Capped (clock.instant + cap) record ↔
      ttl ≤ cap ∧ (renewable = true → clock.instant + ttl ≠ 0) := by
  obtain ⟨-, -, kept, latest, expires⟩ := TokenStore.create_ok created
  have max : record.maxExpiresAt.instant = clock.instant + ttl := latest
  have expiry : record.expiresAt.instant =
      let expiry := clock.instant + if ttl ≤ 0 then store.ttl else ttl
      if clock.instant + ttl = 0 then expiry else min expiry (clock.instant + ttl) := expires
  dsimp only at expiry
  constructor
  · rintro ⟨ends, limited⟩
    rw [kept, max] at limited
    refine ⟨?_, fun renews => (limited renews).1⟩
    rcases lasting with longer | renews
    · rw [if_neg (not_le.mpr longer)] at expiry
      split at expiry <;> omega
    · have within := (limited renews).2
      omega
  · rintro ⟨within, nonzero⟩
    refine ⟨?_, ?_⟩
    · by_cases zero : clock.instant + ttl = 0
      · have longer : 0 < ttl := lasting.resolve_right fun renews => nonzero renews zero
        rw [if_pos zero, if_neg (not_le.mpr longer)] at expiry
        omega
      · rw [if_neg zero] at expiry
        omega
    · rw [kept, max]
      intro renews
      exact ⟨nonzero renews, by omega⟩

theorem wrap64_le {number : Int} (nonneg : 0 ≤ number) : wrap64 number ≤ number := by
  unfold wrap64
  rw [Int.bmod_def]
  split <;> omega

/-- Only the default hour can be longer than the role allows. -/
theorem oidcTTL_le_iff {cfg : OIDCConfig} (limited : 0 < cfg.maxTTL) (defaultTTL : Int) :
    oidcTTL cfg defaultTTL ≤ cfg.maxTTL * nanosecondsPerSecond ↔
      0 < defaultTTL ∨ hours 1 ≤ cfg.maxTTL * nanosecondsPerSecond := by
  have hour : hours 1 = 3600000000000 := by decide
  have positive : 0 < cfg.maxTTL * nanosecondsPerSecond := by
    simp only [nanosecondsPerSecond]
    omega
  have wraps := wrap64_le positive.le
  have fits := @wrap64_of_lt (cfg.maxTTL * nanosecondsPerSecond) positive.le
  simp only [oidcTTL, limited, true_and]
  split
  · rename_i shorter
    refine iff_of_true wraps ?_
    by_contra longer
    have short : cfg.maxTTL * nanosecondsPerSecond < 2 ^ 63 := by omega
    rw [fits short] at shorter
    omega
  · split <;> omega

/-- An agent's token lives for an hour at most and is not renewable. -/
theorem delegateAgent_created {rbac : RBAC} {clock : Time} {parent : Principal}
    {req : AgentDelegateRequest} {delegation : Delegation}
    (delegated : delegateAgent rbac store clock id parent req = .ok delegation) :
    delegation.store.repo.find id = some delegation.record ∧ delegation.record.revoked = false ∧
      delegation.record.renewable = false ∧
      delegation.record.expiresAt.instant ≤ clock.instant + maxAgentTTL := by
  obtain ⟨-, key, ⟨named, stored⟩, -⟩ := delegateAgent_ok delegated
  have found : delegation.store.repo.find id = some delegation.record := by
    rw [stored, Table.find_put]
    exact if_pos key
  refine ⟨found, ?_⟩
  clear found stored key
  have hour : defaultAgentTTL ≤ maxAgentTTL := by decide
  obtain ⟨_, -, delegated⟩ := bind_eq_ok delegated
  obtain ⟨⟨saved, record⟩, created, delegated⟩ := bind_eq_ok delegated
  obtain ⟨_, saving, created⟩ := bind_eq_ok created
  cases created
  cases delegated
  refine ⟨rfl, rfl, ?_⟩
  show clock.instant + (if agentTTL req.ttl ≤ 0 then defaultAgentTTL else agentTTL req.ttl) ≤ _
  have capped : agentTTL req.ttl ≤ maxAgentTTL := by
    simp only [agentTTL]
    split <;> split <;> omega
  split <;> omega

/-- A token of any kind keeps to its cap under every sequence of renewals exactly
if the server's defaults fit under the cap. -/
theorem token_lifetime_capped_iff {rbac : RBAC} {service : LoginService} {state : LoginState}
    {clock : Time} {id : String} {creation : Creation} {cap : Int} {tokens : TokenStore}
    {record : ClientToken} (limited : creation.cap state = some cap)
    (created : creation.perform rbac service state clock id = .ok (tokens, record)) :
    (∀ calls, (run TokenStore.afterRenew tokens calls).EndsBy id (clock.instant + cap)) ↔
      creation.DefaultsFit service state clock := by
  cases creation with
  | createToken subject policies ttl renewable =>
    cases limited
    simp only [Creation.perform, TokenStore.createToken] at created
    split at created
    · cases created
    obtain ⟨found, live, -⟩ := TokenStore.create_ok created
    rw [endsBy_iff_capped found live,
      capped_create_iff created (.inl (state.tokens.requestedTTL_pos ttl)),
      TokenStore.requestedTTL_le_iff]
    rfl
  | issue subject policies =>
    cases limited
    obtain ⟨found, live, -⟩ := TokenStore.create_ok created
    rw [endsBy_iff_capped found live, capped_create_iff created (.inr rfl)]
    simp only [Creation.DefaultsFit, TokenStore.lifetime, le_refl, true_and, forall_const]
  | loginOIDC locked role jwtToken =>
    obtain ⟨⟨later, admittedRecord⟩, admitted, ended⟩ := bind_eq_ok created
    cases ended
    obtain ⟨stored, cfg, subject, named, oidc, created⟩ := loginOIDC_ok admitted
    have configured : Creation.oidcConfig state.roles role = some cfg := by
      rw [Creation.oidcConfig, named]
      exact oidc
    simp only [Creation.cap, configured, Option.ite_none_right_eq_some, Option.some.injEq]
      at limited
    obtain ⟨positive, rfl⟩ := limited
    obtain ⟨found, live, -⟩ := TokenStore.create_ok created
    rw [endsBy_iff_capped found live, capped_create_iff created (.inr rfl),
      oidcTTL_le_iff positive]
    simp only [Creation.DefaultsFit, configured, Option.mem_some_iff, forall_eq', forall_const]
  | delegateAgent parent req =>
    cases limited
    obtain ⟨delegation, delegated, ended⟩ := bind_eq_ok created
    cases ended
    obtain ⟨found, live, once, expires⟩ := delegateAgent_created delegated
    rw [endsBy_iff_capped found live]
    refine iff_of_true ⟨expires, fun renews => ?_⟩ trivial
    rw [once] at renews
    cases renews

/-- A server whose OIDC logins are accepted and have no default lifetime. -/
def undefaultedLogins : LoginService where
  validateKubernetesJWT := fun _ _ =>
    failWith .unauthorized "kubernetes authentication not configured"
  oidc := some fun _ _ => .ok ("dev", ∅)
  oidcTTL := 0
  numberAtLeast := fun _ _ => false
  nhi := false
  defaultPolicies := []

/-- A role that allows tokens of so many seconds. -/
def timedRole (maxTTL : Int) : Role :=
  { name := "dev", policies := ["secrets-reader"], authMethod := "oidc"
    oidc := some { issuer := "", audience := "", jwksURL := "", maxTTL } }

def timedLogins (maxTTL : Int) : LoginState where
  tokens := newTokenStore 0
  roles := Table.empty.put (timedRole maxTTL) rfl
  identities := .empty

def timedLogin : Creation := .loginOIDC false "dev" "jwt"

/-- Two hours are longer than the default. -/
theorem token_lifetime_capped_long_role :
    ∃ tokens record,
      timedLogin.perform ⟨∅⟩ undefaultedLogins (timedLogins 7200) ⟨1, 0⟩ "token" =
          .ok (tokens, record) ∧
        ∀ calls, (run TokenStore.afterRenew tokens calls).EndsBy "token"
          (1 + 7200 * nanosecondsPerSecond) := by
  refine ⟨_, _, rfl, (@token_lifetime_capped_iff ⟨∅⟩ undefaultedLogins (timedLogins 7200) ⟨1, 0⟩
    "token" timedLogin _ _ _ rfl rfl).mpr ?_⟩
  intro cfg configured
  cases configured
  decide

/-- A token for ten minutes authenticates after an hour. -/
theorem oidc_token_outlives_role :
    ∃ tokens record,
      timedLogin.perform ⟨∅⟩ undefaultedLogins (timedLogins 600) ⟨1, 0⟩ "token" =
          .ok (tokens, record) ∧
        timedLogin.cap (timedLogins 600) = some (600 * nanosecondsPerSecond) ∧
        tokens.authenticate ⟨1 + hours 1, 0⟩ "token" = .ok record :=
  ⟨_, _, rfl, rfl, rfl⟩

end KnxVault.Auth
