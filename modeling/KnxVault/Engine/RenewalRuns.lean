import KnxVault.Engine.Renewal

/-!
# Renewing what expires

`RenewExpiring` of `internal/engine/pki/renewal.go`, which a job calls again and
again: which certificates get a successor in one call.
-/

namespace KnxVault.Engine.Pki

open KnxVault.Std KnxVault.Domain KnxVault.Crypto KnxVault.Repository

/-- What one renewal meets: the clock and the identifiers, and a serial number. -/
structure Draw where
  env : Env
  serial : Nat

/-- A selected certificate with what its renewal meets. -/
abbrev Turn := IssuedCertificate × Draw

namespace Issuer

variable (x509 : X509)

def drawn (issuer : Issuer) (draw : Draw) : Issuer :=
  issuer.native x509 draw.env.now draw.serial

/-- Renew one certificate after the other up to the first error. -/
def renewEach (issuer : Issuer) : List Turn → Nat × Option GoError × IssuedCertRepository
  | [] => (0, none, issuer.issued)
  | (cert, draw) :: rest =>
    match (issuer.drawn x509 draw).renewCertificate draw.env (renewalOf cert "") with
    | (.error err, issued) => (0, some err, issued)
    | (.ok _, issued) =>
      let (renewed, err, final) := renewEach { issuer with issued } rest
      (renewed + 1, err, final)

/-- The certificates that expire within the grace period, in turn. -/
def expiring (issuer : Issuer) (env : Env) (draws : Nat → Draw) (grace limit : Int) : List Turn :=
  (issuer.issued.listExpiring env.range (env.now.utc.add grace) limit).zipIdx.map
    fun (cert, index) => (cert, draws index)

def renewExpiring (issuer : Issuer) (env : Env) (draws : Nat → Draw) (grace limit : Int) :
    Nat × Option GoError × IssuedCertRepository :=
  issuer.renewEach x509 (issuer.expiring env draws grace limit)

/-- Whether the renewal of a certificate succeeds on its own. -/
def canRenew (issuer : Issuer) (turn : Turn) : Bool :=
  ((issuer.drawn x509 turn.2).renewCertificate turn.2.env (renewalOf turn.1 "")).1.isOk

end Issuer

/-! ### Successors -/

/-- A stored record that renews a certificate. -/
structure Successor (issued : IssuedCertRepository) (parent cert : IssuedCertificate) : Prop where
  stored : issued.find (certKey cert) = some cert
  sameCA : cert.caID = parent.caID
  renews : cert.renewedFromSerial = some parent.serial

variable {issued : IssuedCertRepository} {row : IssuedCertificate}

/-- A new record is a successor only of the certificate it names. -/
theorem successor_put {parent cert : IssuedCertificate} (valid : row.validate = .ok ())
    (fresh : issued.find (certKey row) = none) :
    Successor (issued.put row valid) parent cert ↔
      Successor issued parent cert ∨
        cert = row ∧ row.caID = parent.caID ∧ row.renewedFromSerial = some parent.serial := by
  constructor
  · rintro ⟨stored, sameCA, renews⟩
    rw [Table.find_put] at stored
    split at stored
    · cases stored
      exact .inr ⟨rfl, sameCA, renews⟩
    · exact .inl ⟨stored, sameCA, renews⟩
  · rintro (⟨stored, sameCA, renews⟩ | ⟨rfl, sameCA, renews⟩)
    · have differs : certKey row ≠ certKey cert := by
        intro same
        rw [same, stored] at fresh
        cases fresh
      exact ⟨(Table.find_put _ _ _ _).trans ((if_neg differs).trans stored), sameCA, renews⟩
    · exact ⟨Table.find_put_self _ _ _, sameCA, renews⟩

/-- Successors are those of a serial of an authority. -/
theorem successor_congr {parent other cert : IssuedCertificate}
    (same : certKey parent = certKey other) :
    Successor issued parent cert ↔ Successor issued other cert := by
  obtain ⟨sameCA, sameSerial⟩ := Prod.mk.inj (toLex.injective same)
  constructor
  · rintro ⟨stored, ofCA, renews⟩
    exact ⟨stored, ofCA.trans sameCA, sameSerial ▸ renews⟩
  · rintro ⟨stored, ofCA, renews⟩
    exact ⟨stored, ofCA.trans sameCA.symm, sameSerial ▸ renews⟩

/-! ### One turn -/

/-- The record of the certificate passes the checks of its role as it now is, and the
role is still one of the authority of the certificate. -/
def Renewable (issuer : Issuer) (turn : Turn) : Prop :=
  ∃ shared : Shared issuer turn.2.env (rebuilt turn.1 ""),
    shared.Issuable ∧ shared.ca.id = turn.1.caID

/-- The records to go with a turn: the certificate is stored, the serial number that is
drawn is not in use. -/
structure Ready (x509 : X509) (issuer : Issuer) (turn : Turn) : Prop where
  stored : issuer.issued.find (certKey turn.1) = some turn.1
  unused : ∀ caID, issuer.issued.find (toLex (caID, toHex turn.2.serial)) = none
  issues : Issues issuer x509 turn.2.env turn.2.serial (rebuilt turn.1 "")

section Turns

variable {x509 : X509} {issuer : Issuer} {turn : Turn}

/-- The checks do not look at the records. -/
def Shared.recast {env : Env} {req : IssueRequest} (shared : Shared issuer env req)
    (issued : IssuedCertRepository) : Shared { issuer with issued } env req where
  role := shared.role
  resolved := shared.resolved
  ca := shared.ca
  found := shared.found
  checked := shared.checked
  limited := shared.limited
  asked := shared.asked
  read := shared.read
  within := shared.within
  caKey := shared.caKey
  opened := shared.opened

theorem Renewable.recast (renewable : Renewable issuer turn) (issued : IssuedCertRepository) :
    Renewable { issuer with issued } turn := by
  obtain ⟨shared, ⟨role, named, printable, sized, second⟩, same⟩ := renewable
  exact ⟨shared.recast issued, ⟨role, named, printable, sized, second⟩, same⟩

theorem renewable_recast_iff {issued : IssuedCertRepository} :
    Renewable { issuer with issued } turn ↔ Renewable issuer turn :=
  ⟨fun renewable => renewable.recast issuer.issued, fun renewable => renewable.recast issued⟩

theorem Issues.recast {env : Env} {serial : Nat} {req : IssueRequest}
    (issues : Issues issuer x509 env serial req) (issued : IssuedCertRepository) :
    Issues { issuer with issued } x509 env serial req where
  able := {
    readable := fun shared => issues.able.readable (shared.recast issuer.issued)
    generates := issues.able.generates
    creates := fun shared => issues.able.creates (shared.recast issuer.issued) }
  unrevoked := issues.unrevoked
  dated := issues.dated

theorem put_put {issued : IssuedCertRepository} {row other : IssuedCertificate}
    {valid : row.validate = .ok ()} {valid' : other.validate = .ok ()}
    (same : certKey row = certKey other) :
    (issued.put row valid).put other valid' = issued.put other valid' := by
  refine Table.ext fun key => ?_
  rw [Table.find_put, Table.find_put, Table.find_put, same]
  split <;> rfl

/-- A turn stores a marked record of the same authority, or it fails with at most an
unmarked one. -/
theorem turn_cases (ready : Ready x509 issuer turn) :
    (Renewable issuer turn ∧ ∃ (result : RenewResult) (row : IssuedCertificate)
      (valid : row.validate = .ok ()), row.serial = toHex turn.2.serial ∧
        row.caID = turn.1.caID ∧ row.renewedFromSerial = some turn.1.serial ∧
        (issuer.drawn x509 turn.2).renewCertificate turn.2.env (renewalOf turn.1 "") =
          (.ok result, issuer.issued.put row valid)) ∨
    (¬ Renewable issuer turn ∧ ∃ (err : GoError) (issued : IssuedCertRepository),
      (issuer.drawn x509 turn.2).renewCertificate turn.2.env (renewalOf turn.1 "") =
        (.error err, issued) ∧
      (issued = issuer.issued ∨ ∃ (row : IssuedCertificate) (valid : row.validate = .ok ()),
        row.serial = toHex turn.2.serial ∧ row.renewedFromSerial = none ∧
          issued = issuer.issued.put row valid)) := by
  have fresh : FreshSerial (issuer.drawn x509 turn.2) turn.2.env (rebuilt turn.1 "") :=
    fun issuance caID => issuance.certificate.2.1 ▸ ready.unused caID
  have stored : (issuer.drawn x509 turn.2).issued.find (certKey turn.1) = some turn.1 :=
    ready.stored
  rcases renewCertificate_cases stored fresh with ⟨err, refused, failed⟩ |
    ⟨issuance, valid, -, ⟨same, renewed⟩ | ⟨other, err, failed⟩⟩
  · refine .inr ⟨?_, err, _, failed, .inl rfl⟩
    rintro ⟨shared, issuable, -⟩
    obtain ⟨answer, accepted⟩ :=
      isOk_iff.mp ((issue_accepted_iff ready.issues rfl).mpr ⟨shared, issuable⟩)
    cases refused.symm.trans accepted
  · have marked : (issuer.issued.put issuance.record valid).put issuance.renewed valid =
        issuer.issued.put issuance.renewed valid := put_put rfl
    exact .inl ⟨⟨issuance.shared, issuance.issuable valid, same⟩, _, issuance.renewed, valid,
      issuance.certificate.2.1, same, rfl, renewed.trans (congrArg _ marked)⟩
  · refine .inr ⟨?_, err, _, failed,
      .inr ⟨issuance.record, valid, issuance.certificate.2.1, rfl, rfl⟩⟩
    rintro ⟨shared, -, same⟩
    rw [shared.unique issuance.shared] at same
    exact other same

theorem canRenew_iff (ready : Ready x509 issuer turn) :
    issuer.canRenew x509 turn = true ↔ Renewable issuer turn := by
  unfold Issuer.canRenew
  rcases turn_cases ready with ⟨renewable, result, row, valid, -, -, -, outcome⟩ |
    ⟨failing, err, issued, outcome, -⟩
  · rw [outcome]
    exact ⟨fun _ => renewable, fun _ => rfl⟩
  · rw [outcome]
    exact ⟨fun isOk => (nomatch isOk), fun renewable => absurd renewable failing⟩

end Turns

/-! ### The loop -/

theorem toHex_injective : Function.Injective toHex := by
  intro number other same
  have read := ofHex_toHex number
  rw [same, ofHex_toHex] at read
  exact (Option.some.inj read).symm

/-- An engine to go with some turns for different certificates, which draw different
serial numbers. -/
structure Prepared (x509 : X509) (issuer : Issuer) (turns : List Turn) : Prop where
  ready : ∀ turn ∈ turns, Ready x509 issuer turn
  drawn : turns.Pairwise fun first second => first.2.serial ≠ second.2.serial
  apart : turns.Pairwise fun first second => certKey first.1 ≠ certKey second.1

variable {x509 : X509} {issuer : Issuer} {turn : Turn}

theorem Ready.put (ready : Ready x509 issuer turn) (valid : row.validate = .ok ())
    (fresh : issuer.issued.find (certKey row) = none) (other : row.serial ≠ toHex turn.2.serial) :
    Ready x509 { issuer with issued := issuer.issued.put row valid } turn where
  stored := by
    have differs : certKey row ≠ certKey turn.1 := by
      intro same
      rw [same, ready.stored] at fresh
      cases fresh
    exact (Table.find_put issuer.issued row valid _).trans
      ((if_neg differs).trans ready.stored)
  unused caID := by
    have differs : certKey row ≠ toLex (caID, toHex turn.2.serial) := fun same =>
      other (Prod.mk.inj (toLex.injective same)).2
    exact (Table.find_put issuer.issued row valid _).trans
      ((if_neg differs).trans (ready.unused caID))
  issues := ready.issues.recast _

/-- After a turn, the records go with the turns that are left. -/
theorem Prepared.next {rest : List Turn} (prepared : Prepared x509 issuer (turn :: rest))
    (valid : row.validate = .ok ()) (serial : row.serial = toHex turn.2.serial)
    (fresh : issuer.issued.find (certKey row) = none) :
    Prepared x509 { issuer with issued := issuer.issued.put row valid } rest where
  ready later mem := by
    refine (prepared.ready later (List.mem_cons_of_mem _ mem)).put valid fresh fun same => ?_
    have drawn := (List.pairwise_cons.mp prepared.drawn).1 later mem
    exact drawn (Int.ofNat.inj (toHex_injective (serial.symm.trans same)))
  drawn := (List.pairwise_cons.mp prepared.drawn).2
  apart := (List.pairwise_cons.mp prepared.apart).2

/-- Exactly the certificates of the turns get a new successor, and each gets one. -/
structure Succeeds (before after : IssuedCertRepository) (turns : List Turn) : Prop where
  kept : ∀ parent cert, Successor before parent cert → Successor after parent cert
  only : ∀ parent cert, Successor after parent cert →
    Successor before parent cert ∨ ∃ turn ∈ turns, certKey turn.1 = certKey parent
  each : ∀ turn ∈ turns, ∃ cert, Successor after turn.1 cert ∧ ¬ Successor before turn.1 cert
  single : ∀ parent cert other, Successor after parent cert → ¬ Successor before parent cert →
    Successor after parent other → ¬ Successor before parent other → cert = other

theorem Succeeds.refl (issued : IssuedCertRepository) : Succeeds issued issued [] where
  kept _ _ successor := successor
  only _ _ successor := .inl successor
  each _ mem := nomatch mem
  single _ _ _ after new := absurd after new

/-- Without a mark, a new record is nobody's successor. -/
theorem Succeeds.of_unmarked (valid : row.validate = .ok ())
    (fresh : issued.find (certKey row) = none) (unmarked : row.renewedFromSerial = none) :
    Succeeds issued (issued.put row valid) [] := by
  have same (parent cert : IssuedCertificate) :
      Successor (issued.put row valid) parent cert ↔ Successor issued parent cert := by
    rw [successor_put valid fresh, unmarked]
    exact or_iff_left fun marked => nomatch marked.2.2
  exact {
    kept := fun parent cert => (same parent cert).mpr
    only := fun parent cert successor => .inl ((same parent cert).mp successor)
    each := fun _ mem => nomatch mem
    single := fun parent cert _ after new => absurd ((same parent cert).mp after) new }

/-- A marked record comes before the successors of the turns that follow. -/
theorem Succeeds.cons {before after : IssuedCertRepository} {rest : List Turn}
    (valid : row.validate = .ok ()) (fresh : before.find (certKey row) = none)
    (sameCA : row.caID = turn.1.caID) (renews : row.renewedFromSerial = some turn.1.serial)
    (apart : ∀ later ∈ rest, certKey turn.1 ≠ certKey later.1)
    (others : Succeeds (before.put row valid) after rest) :
    Succeeds before after (turn :: rest) := by
  have put (parent cert : IssuedCertificate) := @successor_put before row parent cert valid fresh
  -- the record is a successor of the certificate of this turn and of no other one
  have parent_of {parent : IssuedCertificate} (sameParent : row.caID = parent.caID)
      (renewsParent : row.renewedFromSerial = some parent.serial) :
      certKey turn.1 = certKey parent := by
    rw [renews] at renewsParent
    rw [certKey, certKey, ← sameCA, sameParent, Option.some.inj renewsParent]
  have new_of {parent cert : IssuedCertificate} (successor : Successor after parent cert)
      (new : ¬ Successor before parent cert) :
      (cert = row ∧ certKey turn.1 = certKey parent) ∨
        ¬ Successor (before.put row valid) parent cert := by
    by_cases first : Successor (before.put row valid) parent cert
    · obtain ⟨rfl, ofCA, ofSerial⟩ := ((put parent cert).mp first).resolve_left new
      exact .inl ⟨rfl, parent_of ofCA ofSerial⟩
    · exact .inr first
  have later_of {parent cert : IssuedCertificate} (successor : Successor after parent cert)
      (new : ¬ Successor (before.put row valid) parent cert) :
      certKey turn.1 ≠ certKey parent := by
    obtain ⟨later, mem, same⟩ := (others.only parent cert successor).resolve_left new
    exact fun mine => apart later mem (mine.trans same.symm)
  refine ⟨fun parent cert successor => ?_, fun parent cert successor => ?_, fun later mem => ?_,
    fun parent cert other first newFirst second newSecond => ?_⟩
  · exact others.kept _ _ ((put parent cert).mpr (.inl successor))
  · rcases others.only _ _ successor with first | ⟨later, mem, same⟩
    · rcases (put parent cert).mp first with earlier | ⟨-, ofCA, ofSerial⟩
      · exact .inl earlier
      · exact .inr ⟨turn, List.mem_cons_self, parent_of ofCA ofSerial⟩
    · exact .inr ⟨later, List.mem_cons_of_mem _ mem, same⟩
  · rcases List.mem_cons.mp mem with rfl | further
    · have first := (put later.1 row).mpr (.inr ⟨rfl, sameCA, renews⟩)
      refine ⟨row, others.kept _ _ first, fun earlier => ?_⟩
      cases fresh.symm.trans earlier.stored
    · obtain ⟨cert, successor, new⟩ := others.each later further
      exact ⟨cert, successor, fun earlier => new ((put later.1 cert).mpr (.inl earlier))⟩
  · rcases new_of first newFirst with ⟨rfl, mine⟩ | laterFirst
    · rcases new_of second newSecond with ⟨rfl, -⟩ | laterSecond
      · rfl
      · exact absurd mine (later_of second laterSecond)
    · rcases new_of second newSecond with ⟨-, mine⟩ | laterSecond
      · exact absurd mine (later_of first laterFirst)
      · exact others.single _ _ _ first laterFirst second laterSecond

/-- The loop renews the certificates ahead of the first one that cannot be renewed. -/
theorem renewEach_succeeds {turns : List Turn} (prepared : Prepared x509 issuer turns) :
    ∃ done rest, turns = done ++ rest ∧ (∀ turn ∈ done, Renewable issuer turn) ∧
      (∀ turn ∈ rest.head?, ¬ Renewable issuer turn) ∧
      Succeeds issuer.issued (issuer.renewEach x509 turns).2.2 done := by
  induction turns generalizing issuer with
  | nil => exact ⟨[], [], rfl, by simp, by simp, .refl _⟩
  | cons turn rest ih =>
    have ready := prepared.ready turn List.mem_cons_self
    obtain ⟨cert, draw⟩ := turn
    rcases turn_cases ready with
      ⟨renewable, result, row, valid, serial, sameCA, renews, outcome⟩ |
      ⟨failing, err, issued, outcome, left⟩
    · have fresh : issuer.issued.find (certKey row) = none := by
        rw [certKey, serial]
        exact ready.unused row.caID
      obtain ⟨done, undone, split, all, stopped, others⟩ := ih (prepared.next valid serial fresh)
      have loop : (issuer.renewEach x509 ((cert, draw) :: rest)).2.2 =
          (({ issuer with issued := issuer.issued.put row valid } : Issuer).renewEach x509
            rest).2.2 := by
        rw [Issuer.renewEach, outcome]
      refine ⟨(cert, draw) :: done, undone, congrArg _ split, ?_, fun turn first => ?_, ?_⟩
      · exact List.forall_mem_cons.mpr
          ⟨renewable, fun turn mem => renewable_recast_iff.mp (all turn mem)⟩
      · exact fun renewable => stopped turn first (renewable.recast _)
      · rw [loop]
        have apart := (List.pairwise_cons.mp prepared.apart).1
        rw [split] at apart
        exact others.cons valid fresh sameCA renews fun later mem =>
          apart later (List.mem_append_left _ mem)
    · have stopped : (issuer.renewEach x509 ((cert, draw) :: rest)).2.2 = issued := by
        rw [Issuer.renewEach, outcome]
      refine ⟨[], (cert, draw) :: rest, rfl, by simp, ?_, ?_⟩
      · simpa using failing
      · rw [stopped]
        rcases left with rfl | ⟨row, valid, serial, unmarked, rfl⟩
        · exact .refl _
        · have fresh : issuer.issued.find (certKey row) = none := by
            rw [certKey, serial]
            exact ready.unused row.caID
          exact .of_unmarked valid fresh unmarked

/-! ### One call -/

section Expiring

variable {x509 : X509} {issuer : Issuer} {env : Env} {draws : Nat → Draw} {grace limit : Int}

theorem map_fst_expiring : (issuer.expiring env draws grace limit).map Prod.fst =
    issuer.issued.listExpiring env.range (env.now.utc.add grace) limit := by
  rw [Issuer.expiring, List.map_map]
  exact List.zipIdx_map_fst 0 _

theorem stored_of_expiring {turn : Turn} (mem : turn ∈ issuer.expiring env draws grace limit) :
    issuer.issued.find (certKey turn.1) = some turn.1 := by
  have listed := List.mem_map_of_mem (f := Prod.fst) mem
  rw [map_fst_expiring] at listed
  have sorted := mem_sortBy.mp (List.mem_of_mem_take listed)
  exact Table.mem_visit.mp (List.mem_filter.mp sorted).1

theorem nodup_expiring :
    ((issuer.expiring env draws grace limit).map fun turn => certKey turn.1).Nodup := by
  have keys : (issuer.expiring env draws grace limit).map (fun turn => certKey turn.1) =
      (issuer.issued.listExpiring env.range (env.now.utc.add grace) limit).map certKey := by
    rw [← @map_fst_expiring issuer env draws, List.map_map]
    rfl
  rw [keys]
  have visited := Table.nodup_visit issuer.issued env.range
  have filtered := visited.sublist (List.Sublist.map certKey (List.filter_sublist
    (p := fun cert => cert.autoRenew && !cert.expiresAt.after (env.now.utc.add grace))))
  have sorted := ((perm_sortBy (lessBy fun cert : IssuedCertificate => cert.expiresAt.instant)
    _).map certKey).nodup_iff.mpr filtered
  exact sorted.sublist ((List.take_sublist _ _).map certKey)

/-- The serial numbers that the renewals of a call draw are not in use, none is drawn
twice, and the library makes the certificates. -/
structure Supplied (x509 : X509) (issuer : Issuer) (turns : List Turn) : Prop where
  unused : ∀ turn ∈ turns, ∀ caID, issuer.issued.find (toLex (caID, toHex turn.2.serial)) = none
  drawn : turns.Pairwise fun first second => first.2.serial ≠ second.2.serial
  issues : ∀ turn ∈ turns, Issues issuer x509 turn.2.env turn.2.serial (rebuilt turn.1 "")

theorem prepared_expiring
    (supplied : Supplied x509 issuer (issuer.expiring env draws grace limit)) :
    Prepared x509 issuer (issuer.expiring env draws grace limit) where
  ready turn mem := ⟨stored_of_expiring mem, supplied.unused turn mem, supplied.issues turn mem⟩
  drawn := supplied.drawn
  apart := List.pairwise_map.mp nodup_expiring

/-- A call renews no certificate that has a successor, gives no certificate two new
ones, and each certificate that it selects and whose renewal succeeds on its own has a
successor afterwards. -/
structure RenewsOnce (x509 : X509) (issuer : Issuer) (env : Env) (draws : Nat → Draw)
    (grace limit : Int) : Prop where
  once : ∀ parent earlier, Successor issuer.issued parent earlier → ∀ cert,
    Successor (issuer.renewExpiring x509 env draws grace limit).2.2 parent cert →
      Successor issuer.issued parent cert
  single : ∀ parent cert other,
    Successor (issuer.renewExpiring x509 env draws grace limit).2.2 parent cert →
    Successor (issuer.renewExpiring x509 env draws grace limit).2.2 parent other →
    ¬ Successor issuer.issued parent cert → ¬ Successor issuer.issued parent other → cert = other
  each : ∀ turn ∈ issuer.expiring env draws grace limit, issuer.canRenew x509 turn = true →
    ∃ cert, Successor (issuer.renewExpiring x509 env draws grace limit).2.2 turn.1 cert

/-- Among the selected certificates, in their order: one that can be renewed has no
successor if all ahead of it can be renewed, and has one if one ahead of it cannot. -/
structure Unrenewed (issuer : Issuer) (env : Env) (draws : Nat → Draw) (grace limit : Int) :
    Prop where
  ahead : ∀ before turn after, issuer.expiring env draws grace limit = before ++ turn :: after →
    Renewable issuer turn → (∀ earlier ∈ before, Renewable issuer earlier) →
      ∀ cert, ¬ Successor issuer.issued turn.1 cert
  behind : ∀ before turn after, issuer.expiring env draws grace limit = before ++ turn :: after →
    Renewable issuer turn → (∃ earlier ∈ before, ¬ Renewable issuer earlier) →
      ∃ cert, Successor issuer.issued turn.1 cert

/-- An item is in the first part of a list if it and what is ahead of it have a
property that the first item of the other part does not have. -/
theorem done_of_ahead {α : Type*} {Holds : α → Prop} {done rest before after : List α} {item : α}
    (stopped : ∀ item ∈ rest.head?, ¬ Holds item)
    (split : done ++ rest = before ++ item :: after) (holds : Holds item)
    (ahead : ∀ earlier ∈ before, Holds earlier) : ∃ more, done = before ++ item :: more := by
  rcases List.append_eq_append_iff.mp split with ⟨middle, rfl, same⟩ | ⟨middle, rfl, same⟩
  · rw [same] at stopped
    cases middle with
    | nil => exact absurd holds (stopped item rfl)
    | cons first more => exact absurd (ahead first (by simp)) (stopped first rfl)
  · cases middle with
    | nil =>
      rw [List.nil_append] at same
      rw [← same] at stopped
      exact absurd holds (stopped item rfl)
    | cons first more =>
      obtain ⟨rfl, -⟩ := List.cons.inj same
      exact ⟨more, rfl⟩

end Expiring

section Samples

/-- A renewal in the first second that draws the serial number. -/
def drawingSerial (serial : Nat) : Draw := ⟨firstSecond, serial⟩

/-- The records after a first call. -/
def renewedOnce : IssuedCertRepository :=
  ((renewing webRoles .empty recorded).renewExpiring hostX509 firstSecond
    (fun _ => drawingSerial 8) defaultLeafTTL 10).2.2

/-- The draws of a second call. -/
def secondDraws (index : Nat) : Draw := drawingSerial (9 + index)

/-- The record of a renewal of the certificate. -/
def hostSuccessor (serial : String) : IssuedCertificate :=
  { hostRecord with serial, renewedFromSerial := some "7" }

/-- A certificate of a deleted role, which expires earlier. -/
def goneRecord : IssuedCertificate :=
  { hostRecord with role := "gone", serial := "1", expiresAt := ⟨2000000000, 0⟩ }

def blocked : IssuedCertRepository := recorded.put goneRecord (by decide +kernel)

end Samples

end KnxVault.Engine.Pki
