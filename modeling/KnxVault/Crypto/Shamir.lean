import KnxVault.Crypto.GaloisField
import KnxVault.Std.Data
import KnxVault.Std.Interpolation

/-!
# Shamir secret sharing for the unseal shares

`split` and `combine` follow `internal/crypto/shamir/shamir.go`. The random
coefficients are an argument of `split`: one row of `t - 1` bytes for every
byte of the secret. `combine` collects the shares in a map by x-coordinate and
interpolates in whatever order a range over that map visits it.
-/

namespace KnxVault.Crypto.Shamir

open KnxVault.Std

/-- Horner. -/
def evalPoly (coeffs : List Byte) (x : Byte) : Byte :=
  coeffs.foldr (fun coeff y => gfMul y x ^^^ coeff) 0

/-- The random coefficients of one call: `coeffs[1:]` for every secret byte. -/
abbrev Coefficients (secretLen : Nat) (t : Int) := Fin secretLen → Fin (t.toNat - 1) → Byte

/-- The share with x-coordinate `x`: `[x || y0 || y1 || ...]`. -/
def shareAt (secret : List Byte) (t : Int) (random : Coefficients secret.length t) (x : Byte) :
    List Byte :=
  x :: List.ofFn fun i => evalPoly (secret[i] :: List.ofFn (random i)) x

/-- Splits secret into n shares with threshold t (need t shares to recover). -/
def split (secret : List Byte) (n t : Int) (random : Coefficients secret.length t) :
    Except String (List (List Byte)) :=
  if t < 1 ∨ n < t ∨ n > 255 then
    .error "shamir: need 1 <= t <= n <= 255"
  else if secret.length = 0 then
    .error "shamir: empty secret"
  else
    .ok ((List.range n.toNat).map fun i => shareAt secret t random (BitVec.ofNat 8 (i + 1)))

/-- The basis quotient of point `i`: the products over all other points. -/
def lagrangeWeight (points : List (Byte × Byte)) (i : Nat) (xi x : Byte) : Byte × Byte :=
  points.zipIdx.foldl
    (fun (num, den) (point, j) =>
      if i = j then (num, den)
      else (gfMul num (gfSub x point.1), gfMul den (gfSub xi point.1)))
    (1, 1)

/-- Lagrange interpolation of y at `x`. -/
def interpolate (points : List (Byte × Byte)) (x : Byte) : Byte :=
  points.zipIdx.foldl
    (fun result (point, i) =>
      let (num, den) := lagrangeWeight points i point.1 x
      result ^^^ gfMul point.2 (gfDiv num den))
    0

/-- The x-coordinate in front of a share. -/
def shareX (share : List Byte) : Byte := share.getD 0 0

/-- Keep a share under its x-coordinate, replacing an earlier one. -/
def collectShare (byX : Std.ExtTreeMap Byte (List Byte)) (share : List Byte) :
    Except String (Std.ExtTreeMap Byte (List Byte)) :=
  if shareX share = 0 then .error "shamir: invalid share x=0"
  else .ok (byX.insert (shareX share) share)

/-- Deduplicate by x. -/
def collectByX (shares : List (List Byte)) : Except String (Std.ExtTreeMap Byte (List Byte)) :=
  shares.foldlM collectShare ∅

/-- Recovers the secret from at least t distinct shares. -/
def combine (range : MapRange) (shares : List (List Byte)) : Except String (List Byte) :=
  match shares with
  | [] => .error "shamir: need at least one share"
  | first :: _ =>
    let secretLen := first.length - 1
    if secretLen < 1 then
      .error "shamir: invalid share length"
    else if shares.any (·.length ≠ secretLen + 1) then
      .error "shamir: inconsistent share length"
    else do
      let byX ← collectByX shares
      if byX.size < 1 then
        .error "shamir: no valid shares"
      else
        let xs := range.order byX.keys
        .ok ((List.range secretLen).map fun i =>
          interpolate (xs.map fun x => (x, (byX.getD x []).getD (i + 1) 0)) 0)

example : split [7, 9] 3 2 (fun _ _ => 5) =
    .ok [[1, 2, 12], [2, 13, 3], [3, 8, 6]] := by decide

example : combine .sorted [[3, 8, 6], [1, 2, 12], [3, 8, 6]] = .ok [7, 9] := by decide +kernel

/-! ## The loops as field expressions -/

open GF256

theorem ofByte_evalPoly (coeffs : List Byte) (x : Byte) :
    ofByte (evalPoly coeffs x) = hornerEval (coeffs.map ofByte) (ofByte x) := by
  induction coeffs with
  | nil => rfl
  | cons coeff rest ih =>
    change ofByte (evalPoly rest x) * ofByte x + ofByte coeff = _
    rw [ih]
    rfl

private theorem zipIdx_eq_ofFn {α : Type} (elements : List α) :
    elements.zipIdx = List.ofFn fun i : Fin elements.length => (elements[i], i.val) := by
  apply List.ext_getElem
  · simp
  · intro index _ _
    simp

private theorem ofByte_foldl_xor {α : Type} (term : α → Byte) (elements : List α) (start : Byte) :
    ofByte (elements.foldl (fun result element => result ^^^ term element) start) =
      ofByte start + (elements.map fun element => ofByte (term element)).sum := by
  induction elements generalizing start with
  | nil => simp
  | cons element rest ih =>
    rw [List.foldl_cons, ih, List.map_cons, List.sum_cons, ← add_assoc]
    rfl

/-- Both products of a weight range over the other points. -/
private theorem lagrangeWeight_foldl (others : List ((Byte × Byte) × Nat)) (i : Nat)
    (xi x : Byte) (start : Byte × Byte) :
    (others.foldl
      (fun (num, den) (point, j) =>
        if i = j then (num, den)
        else (gfMul num (gfSub x point.1), gfMul den (gfSub xi point.1))) start).map
        ofByte ofByte =
      (ofByte start.1 * (others.map fun other =>
          if i = other.2 then 1 else ofByte x - ofByte other.1.1).prod,
        ofByte start.2 * (others.map fun other =>
          if i = other.2 then 1 else ofByte xi - ofByte other.1.1).prod) := by
  induction others generalizing start with
  | nil => simp [Prod.map]
  | cons other rest ih =>
    rw [List.foldl_cons, ih]
    by_cases own : i = other.2
    · simp [own]
    · simp only [own, ↓reduceIte, List.map_cons, List.prod_cons, ← mul_assoc]
      rfl

private theorem prod_skip {count : Nat} (i : Fin count) (factor : Fin count → GF256) :
    ∏ j, (if i.val = j.val then 1 else factor j) = ∏ j ∈ Finset.univ.erase i, factor j := by
  rw [← Finset.prod_erase Finset.univ (a := i) (by simp)]
  refine Finset.prod_congr rfl fun j member => if_neg fun equal => ?_
  exact Finset.ne_of_mem_erase member (Fin.ext equal).symm

theorem ofByte_lagrangeWeight (points : List (Byte × Byte)) (i : Fin points.length) (x : Byte) :
    (lagrangeWeight points i points[i].1 x).map ofByte ofByte =
      (∏ j ∈ Finset.univ.erase i, (ofByte x - ofByte points[j].1),
        ∏ j ∈ Finset.univ.erase i, (ofByte points[i].1 - ofByte points[j].1)) := by
  rw [lagrangeWeight, lagrangeWeight_foldl, zipIdx_eq_ofFn]
  simp only [List.map_ofFn, List.prod_ofFn, Function.comp_def, prod_skip]
  exact Prod.ext (one_mul _) (one_mul _)

/-- The nested interpolation loops compute Lagrange's formula. -/
theorem ofByte_interpolate (points : List (Byte × Byte)) (x : Byte) :
    ofByte (interpolate points x) =
      lagrangeAt (fun i : Fin points.length => ofByte points[i].1)
        (fun i => ofByte points[i].2) (ofByte x) := by
  rw [interpolate, ofByte_foldl_xor, zipIdx_eq_ofFn, List.map_ofFn, List.sum_ofFn, lagrangeAt]
  refine (zero_add _).trans (Finset.sum_congr rfl fun i _ => ?_)
  have weights := ofByte_lagrangeWeight points i x
  have num := congrArg Prod.fst weights
  have den := congrArg Prod.snd weights
  simp only [Prod.map_fst, Prod.map_snd] at num den
  rw [← num, ← den]
  rfl

/-! ## Reconstruction -/

/-- The polynomial behind position `i` of every share. -/
private theorem ofByte_shareAt (secret : List Byte) (t : Int)
    (random : Coefficients secret.length t) (x : Byte) (i : Fin secret.length) :
    ofByte ((shareAt secret t random x).getD (i + 1) 0) =
      hornerEval (ofByte secret[i] :: List.ofFn fun k => ofByte (random i k)) (ofByte x) := by
  have position : (shareAt secret t random x).getD (i + 1) 0 =
      evalPoly (secret[i] :: List.ofFn (random i)) x := by
    simp [shareAt, List.getD]
  rw [position, ofByte_evalPoly, List.map_cons, List.map_ofFn]
  rfl

/-- Interpolating one position of the shares of enough distinct x-coordinates
recovers the secret byte. -/
theorem interpolate_shares (secret : List Byte) (t : Int)
    (random : Coefficients secret.length t) (xs : List Byte) (distinct : xs.Nodup)
    (enough : t.toNat ≤ xs.length) (positive : 1 ≤ t) (i : Fin secret.length) :
    interpolate (xs.map fun x => (x, (shareAt secret t random x).getD (i + 1) 0)) 0 =
      secret[i] := by
  let coeffs := ofByte secret[i] :: List.ofFn fun k => ofByte (random i k)
  let points := xs.map fun x => (x, (shareAt secret t random x).getD (i + 1) 0)
  have pointsLength : points.length = xs.length := List.length_map ..
  have nodes : Function.Injective fun k : Fin points.length => ofByte points[k].1 := by
    intro k l equal
    have sameX := ofByte_injective equal
    simp only [points, List.getElem_map, Fin.getElem_fin] at sameX
    exact Fin.ext ((List.Nodup.getElem_inj_iff distinct).mp sameX)
  have bounded : (coeffPoly coeffs).degree < points.length := by
    have below := degree_coeffPoly_lt coeffs
    have count : coeffs.length = t.toNat := by
      simp only [coeffs, List.length_cons, List.length_ofFn]
      omega
    rw [count] at below
    exact lt_of_lt_of_le below (by rw [pointsLength]; exact_mod_cast enough)
  have passes : ∀ k : Fin points.length,
      (coeffPoly coeffs).eval (ofByte points[k].1) = ofByte points[k].2 := by
    intro k
    simp only [points, List.getElem_map, Fin.getElem_fin]
    rw [eval_coeffPoly, ofByte_shareAt]
  apply ofByte_injective
  rw [ofByte_interpolate, lagrangeAt_eq_eval nodes bounded passes]
  have atZero : ofByte 0 = (0 : GF256) := rfl
  rw [atZero, eval_coeffPoly]
  simp [coeffs, hornerEval]

/-- Shares collected by x-coordinate hold exactly the shares given, provided the
x-coordinate determines the share. -/
theorem collectByX_spec (shares : List (List Byte)) (share : Byte → List Byte)
    (determined : ∀ s ∈ shares, shareX s ≠ 0 ∧ s = share (shareX s)) :
    ∃ byX, collectByX shares = .ok byX ∧
      ∀ x, byX[x]? = if x ∈ shares.map shareX then some (share x) else none := by
  -- Induction on the list, for every map collected so far.
  have collected : ∀ (rest : List (List Byte)) (start : Std.ExtTreeMap Byte (List Byte)),
      (∀ s ∈ rest, shareX s ≠ 0 ∧ s = share (shareX s)) →
      ∃ byX, rest.foldlM collectShare start = .ok byX ∧
        ∀ x, byX[x]? = if x ∈ rest.map shareX then some (share x) else start[x]? := by
    intro rest
    induction rest with
    | nil => exact fun start _ => ⟨start, rfl, by simp⟩
    | cons s rest ih =>
      intro start all
      obtain ⟨nonzero, shape⟩ := all s (by simp)
      obtain ⟨byX, folded, lookup⟩ :=
        ih (start.insert (shareX s) s) fun s' member => all s' (by simp [member])
      refine ⟨byX, ?_, fun x => ?_⟩
      · rw [List.foldlM_cons, collectShare, if_neg nonzero]
        exact folded
      · rw [lookup x, Std.ExtTreeMap.getElem?_insert, List.map_cons]
        simp only [Std.LawfulEqOrd.compare_eq_iff_eq, List.mem_cons]
        by_cases later : x ∈ rest.map shareX
        · rw [if_pos later, if_pos (.inr later)]
        · by_cases here : shareX s = x
          · rw [if_neg later, if_pos here, if_pos (.inl here.symm), ← here, ← shape]
          · rw [if_neg later, if_neg here, if_neg (by simp [later, Ne.symm here])]
  obtain ⟨byX, folded, lookup⟩ := collected shares ∅ determined
  exact ⟨byX, folded, by simpa using lookup⟩

theorem shareX_shareAt (secret : List Byte) (t : Int) (random : Coefficients secret.length t)
    (x : Byte) : shareX (shareAt secret t random x) = x := rfl

theorem length_shareAt (secret : List Byte) (t : Int) (random : Coefficients secret.length t)
    (x : Byte) : (shareAt secret t random x).length = secret.length + 1 := by
  simp [shareAt]

variable {secret : List Byte} {n t : Int} {shares : List (List Byte)}

/-- What an accepted call of `split` returns. -/
theorem split_ok_iff {random : Coefficients secret.length t} :
    split secret n t random = .ok shares ↔
      (1 ≤ t ∧ t ≤ n ∧ n ≤ 255 ∧ secret ≠ []) ∧
        shares = (List.range n.toNat).map fun i =>
          shareAt secret t random (BitVec.ofNat 8 (i + 1)) := by
  unfold split
  split
  case isTrue rejected =>
    constructor
    · intro impossible
      cases impossible
    · rintro ⟨accepted, _⟩
      omega
  case isFalse bounds =>
    split
    case isTrue empty =>
      constructor
      · intro impossible
        cases impossible
      · rintro ⟨accepted, _⟩
        exact absurd (List.length_eq_zero_iff.mp empty) accepted.2.2.2
    case isFalse nonempty =>
      have accepted : 1 ≤ t ∧ t ≤ n ∧ n ≤ 255 ∧ secret ≠ [] :=
        ⟨by omega, by omega, by omega, fun empty => nonempty (by simp [empty])⟩
      rw [Except.ok.injEq]
      exact ⟨fun equal => ⟨accepted, equal.symm⟩, fun result => result.2.symm⟩

/-- Every produced share has a non-zero x-coordinate that determines it. -/
theorem split_shares {random : Coefficients secret.length t}
    (produced : split secret n t random = .ok shares) {share : List Byte}
    (member : share ∈ shares) :
    shareX share ≠ 0 ∧ share = shareAt secret t random (shareX share) := by
  obtain ⟨accepted, rfl⟩ := split_ok_iff.mp produced
  obtain ⟨i, inside, rfl⟩ := List.mem_map.mp member
  have bounded : i < n.toNat := List.mem_range.mp inside
  refine ⟨fun zero => ?_, rfl⟩
  have wrapped := congrArg BitVec.toNat zero
  rw [shareX_shareAt, BitVec.toNat_ofNat, Nat.mod_eq_of_lt (by omega)] at wrapped
  simp at wrapped

/-- Shares of one length with proper indices combine to something. -/
theorem combine_ok (range : MapRange) (nonempty : shares ≠ []) {length : Nat} (long : 2 ≤ length)
    (proper : ∀ share ∈ shares, share.length = length ∧ shareX share ≠ 0) :
    ∃ secret, combine range shares = .ok secret := by
  have collected : ∀ (rest : List (List Byte)) (start : Std.ExtTreeMap Byte (List Byte)),
      (∀ share ∈ rest, shareX share ≠ 0) →
      ∃ byX, rest.foldlM collectShare start = .ok byX ∧
        (rest ≠ [] ∨ 0 < start.size → 0 < byX.size) := by
    intro rest
    induction rest with
    | nil => exact fun start _ => ⟨start, rfl, by simp⟩
    | cons share rest ih =>
      intro start nonzero
      obtain ⟨byX, folded, filled⟩ := ih (start.insert (shareX share) share)
        fun other listed => nonzero other (List.mem_cons_of_mem _ listed)
      refine ⟨byX, ?_, fun _ => filled (.inr ?_)⟩
      · rw [List.foldlM_cons, collectShare, if_neg (nonzero share List.mem_cons_self)]
        exact folded
      · refine Nat.pos_of_ne_zero fun none => ?_
        have found := getElem?_insert start (shareX share) (shareX share) share
        rw [Std.ExtTreeMap.eq_empty_iff_size_eq_zero.mpr none, if_pos rfl] at found
        simp at found
  obtain ⟨byX, folded, filled⟩ := collected shares ∅ fun share listed => (proper share listed).2
  cases shares with
  | nil => exact absurd rfl nonempty
  | cons first rest =>
    have firstLength : first.length = length := (proper first List.mem_cons_self).1
    have consistent : ((first :: rest).any fun share => share.length ≠ first.length - 1 + 1) =
        false := by
      rw [List.any_eq_false]
      intro share listed
      rw [(proper share listed).1, firstLength]
      simp
      omega
    have some : 0 < byX.size := filled (.inl (List.cons_ne_nil _ _))
    have folded' : collectByX (first :: rest) = .ok byX := folded
    simp only [combine, consistent, folded', Bool.false_eq_true, if_false]
    rw [if_neg (by omega)]
    exact ⟨_, if_neg (by omega)⟩

/-- Any list of produced shares with at least `t` different indices, in any
order and with repetitions, combines to the secret. -/
theorem combine_split (range : MapRange) {secret : List Byte} {n t : Int}
    {random : Coefficients secret.length t} {shares chosen : List (List Byte)}
    (produced : split secret n t random = .ok shares)
    (members : ∀ share ∈ chosen, share ∈ shares)
    (enough : t ≤ (chosen.map shareX).dedup.length) :
    combine range chosen = .ok secret := by
  obtain ⟨⟨positive, _, _, nonempty⟩, _⟩ := split_ok_iff.mp produced
  have determined : ∀ share ∈ chosen,
      shareX share ≠ 0 ∧ share = shareAt secret t random (shareX share) :=
    fun share member => split_shares produced (members share member)
  have lengths : ∀ share ∈ chosen, share.length = secret.length + 1 := fun share member => by
    rw [(determined share member).2, length_shareAt]
  obtain ⟨byX, collected, lookup⟩ := collectByX_spec chosen _ determined
  have memKeys : ∀ x, x ∈ byX.keys ↔ x ∈ chosen.map shareX := by
    intro x
    rw [Std.ExtTreeMap.mem_keys, ← Std.ExtTreeMap.isSome_getElem?_iff_mem, lookup x]
    by_cases known : x ∈ chosen.map shareX
    · rw [if_pos known]
      exact ⟨fun _ => known, fun _ => rfl⟩
    · rw [if_neg known]
      exact ⟨fun absent => absurd absent (by simp), fun present => absurd present known⟩
  have keysDistinct : byX.keys.Nodup :=
    byX.distinct_keys.imp fun distinct equal =>
      distinct (Std.LawfulEqOrd.compare_eq_iff_eq.mpr equal)
  have keysLength : byX.keys.length = (chosen.map shareX).dedup.length := by
    refine (List.perm_of_nodup_nodup_toFinset_eq keysDistinct (List.nodup_dedup _) ?_).length_eq
    ext x
    simp [memKeys]
  have secretPositive : 0 < secret.length := List.length_pos_iff.mpr nonempty
  -- The checks of `combine` pass one after the other.
  cases chosen with
  | nil =>
    simp at enough
    omega
  | cons first rest =>
    have firstLength : first.length - 1 = secret.length := by
      rw [lengths first (by simp)]
      rfl
    have consistent :
        ((first :: rest).any fun share => share.length ≠ secret.length + 1) = false := by
      rw [List.any_eq_false]
      intro share member
      simp [lengths share member]
    have someShare : ¬ byX.size < 1 := by
      rw [← Std.ExtTreeMap.length_keys, keysLength]
      omega
    simp only [combine, firstLength, consistent, collected, ↓reduceIte,
      Nat.not_lt.mpr (Nat.succ_le_of_lt secretPositive), Bool.false_eq_true]
    change (if byX.size < 1 then _ else _) = _
    rw [if_neg someShare]
    congr 1
    apply List.ext_getElem
    · simp
    · intro index _ inside
      rw [List.getElem_map, List.getElem_range]
      have values : ((range.order byX.keys).map fun x =>
          (x, (byX.getD x []).getD (index + 1) 0)) =
          (range.order byX.keys).map fun x =>
            (x, (shareAt secret t random x).getD (index + 1) 0) := by
        refine List.map_congr_left fun x member => ?_
        have known : x ∈ (first :: rest).map shareX :=
          (memKeys x).mp ((range.mem_order).mp member)
        rw [Std.ExtTreeMap.getD_eq_getD_getElem?, lookup x, if_pos known]
        rfl
      rw [values]
      refine interpolate_shares secret t random _ (range.nodup_order keysDistinct) ?_ positive
        ⟨index, inside⟩
      rw [range.length_order, keysLength]
      omega

/-- Shares 5, 2, 5 again and 1 of a three-of-five split recover the secret. -/
theorem combine_split_three_of_five :
    combine .sorted [[5, 0xb9, 0xbc], [2, 4, 0x4a], [5, 0xb9, 0xbc], [1, 0x25, 0x0b]] =
      .ok [42, 12] :=
  @combine_split .sorted [42, 12] 5 3 (fun i k => BitVec.ofNat 8 (20 * i + k + 7))
    [[1, 0x25, 0x0b], [2, 4, 0x4a], [3, 0x0b, 0x4d], [4, 0xb6, 0xbb], [5, 0xb9, 0xbc]]
    [[5, 0xb9, 0xbc], [2, 4, 0x4a], [5, 0xb9, 0xbc], [1, 0x25, 0x0b]]
    (by decide +kernel) (by decide) (by decide)

/-! ## Secrecy -/

/-- The shares at the given positions of the result. -/
def observe {count : Nat} (indices : Fin count → Nat) (shares : List (List Byte)) :
    Fin count → Option (List Byte) :=
  fun j => shares[indices j]?

/-- An accepted split as seen at positions of its result. -/
theorem observe_split (positive : 1 ≤ t) (ordered : t ≤ n) (bounded : n ≤ 255)
    (nonempty : secret ≠ []) {count : Nat} {indices : Fin count → Nat}
    (inside : ∀ j, indices j < n.toNat) (random : Coefficients secret.length t) :
    (split secret n t random).map (observe indices) =
      .ok fun j => some (shareAt secret t random (BitVec.ofNat 8 (indices j + 1))) := by
  have produced : split secret n t random = _ :=
    split_ok_iff.mpr ⟨⟨positive, ordered, bounded, nonempty⟩, rfl⟩
  rw [produced]
  change Except.ok _ = _
  congr 1
  funext j
  simp [observe, inside j]

/-- Any `t - 1` shares of any values are explained by every candidate secret,
with exactly one choice of the random coefficients. -/
theorem existsUnique_coefficients (positive : 1 ≤ t) (ordered : t ≤ n) (bounded : n ≤ 255)
    (nonempty : secret ≠ []) {indices : Fin (t.toNat - 1) → Nat} (inside : ∀ j, indices j < n.toNat)
    (distinct : Function.Injective indices)
    (values : Fin (t.toNat - 1) → Fin secret.length → Byte) :
    ∃! random : Coefficients secret.length t,
      (split secret n t random).map (observe indices) =
        .ok fun j => some (BitVec.ofNat 8 (indices j + 1) :: List.ofFn (values j)) := by
  let node : Fin (t.toNat - 1) → GF256 := fun j => ofByte (BitVec.ofNat 8 (indices j + 1))
  have nodeValue : ∀ j, (node j).toByte.toNat = indices j + 1 := by
    intro j
    have small := inside j
    simp only [node, BitVec.toNat_ofNat]
    omega
  have nodesDistinct : Function.Injective node := by
    intro j k equal
    have same := congrArg (fun element => element.toByte.toNat) equal
    simp only [nodeValue] at same
    exact distinct (Nat.succ.inj same)
  have nodesNonzero : ∀ j, node j ≠ 0 := by
    intro j zero
    have value := nodeValue j
    rw [zero] at value
    simp at value
  -- The observation holds exactly when every position of the secret satisfies
  -- its own system of equations, one equation for each observed share.
  have explained : ∀ random : Coefficients secret.length t,
      (split secret n t random).map (observe indices) =
          (.ok fun j => some (BitVec.ofNat 8 (indices j + 1) :: List.ofFn (values j))) ↔
        ∀ i j, hornerEval (ofByte secret[i] :: List.ofFn fun k => ofByte (random i k)) (node j) =
          ofByte (values j i) := by
    intro random
    rw [observe_split positive ordered bounded nonempty inside]
    simp only [Except.ok.injEq, funext_iff, Option.some.injEq, shareAt, List.cons.injEq, true_and,
      List.ofFn_inj]
    rw [forall_comm]
    refine forall_congr' fun i => forall_congr' fun j => ?_
    rw [← ofByte_injective.eq_iff, ofByte_evalPoly, List.map_cons, List.map_ofFn]
    rfl
  have solvable := fun i : Fin secret.length =>
    existsUnique_tail nodesDistinct nodesNonzero (ofByte secret[i]) fun j => ofByte (values j i)
  choose row rowSolves rowUnique using solvable
  refine ⟨fun i k => (row i k).toByte, (explained _).mpr fun i j => rowSolves i j,
    fun random observed => ?_⟩
  funext i k
  have solved := rowUnique i (fun k => ofByte (random i k)) ((explained random).mp observed i)
  exact congrArg toByte (congrFun solved k)

/-- A bijection carries the uniform distribution to the uniform distribution. -/
private theorem map_uniform_of_bijective {α β : Type} [Fintype α] [Nonempty α] [Fintype β]
    [Nonempty β] {f : α → β} (bijective : Function.Bijective f) :
    (PMF.uniformOfFintype α).map f = PMF.uniformOfFintype β := by
  ext b
  obtain ⟨a, rfl⟩ := bijective.2 b
  rw [PMF.map_apply, tsum_eq_single a]
  · simp [Fintype.card_of_bijective bijective]
  · intro other different
    rw [if_neg fun equal => different (bijective.1 equal).symm]

/-- The shares at `t - 1` positions are distributed alike for any two secrets of
one length. -/
theorem observe_distribution {secret' : List Byte} (positive : 1 ≤ t) (ordered : t ≤ n)
    (bounded : n ≤ 255) (nonempty : secret ≠ []) (sameLength : secret'.length = secret.length)
    {indices : Fin (t.toNat - 1) → Nat} (inside : ∀ j, indices j < n.toNat)
    (distinct : Function.Injective indices) :
    (PMF.uniformOfFintype (Coefficients secret'.length t)).map
        (fun random => (split secret' n t random).map (observe indices)) =
      (PMF.uniformOfFintype (Coefficients secret.length t)).map
        (fun random => (split secret n t random).map (observe indices)) := by
  have nonempty' : secret' ≠ [] := by
    rw [← List.length_pos_iff] at nonempty ⊢
    omega
  -- Match each choice for `secret'` with the one for `secret` that shows the same shares.
  have matched : ∀ random' : Coefficients secret'.length t, ∃ random : Coefficients secret.length t,
      (split secret n t random).map (observe indices) =
        (split secret' n t random').map (observe indices) := by
    intro random'
    obtain ⟨random, observed, _⟩ := existsUnique_coefficients positive ordered bounded nonempty
      inside distinct fun j i => evalPoly (secret'.get (i.cast sameLength.symm) ::
        List.ofFn (random' (i.cast sameLength.symm))) (BitVec.ofNat 8 (indices j + 1))
    refine ⟨random, observed.trans ?_⟩
    rw [observe_split positive ordered bounded nonempty' inside]
    congr 1
    funext j
    simp only [shareAt, Option.some.injEq, List.cons.injEq, true_and]
    exact List.ofFn_congr sameLength.symm _
  choose translate translated using matched
  have injective : Function.Injective translate := by
    intro left right equal
    have same : (split secret' n t left).map (observe indices) =
        (split secret' n t right).map (observe indices) := by
      rw [← translated left, ← translated right, equal]
    have shown := observe_split positive ordered bounded nonempty' inside right
    exact (existsUnique_coefficients positive ordered bounded nonempty' inside distinct _).unique
      (same.trans shown) shown
  have bijective : Function.Bijective translate := by
    rw [Fintype.bijective_iff_injective_and_card]
    exact ⟨injective, by simp [sameLength]⟩
  have through : (fun random' => (split secret' n t random').map (observe indices)) =
      (fun random => (split secret n t random).map (observe indices)) ∘ translate :=
    funext fun random' => (translated random').symm
  rw [through, ← PMF.map_comp, map_uniform_of_bijective bijective]

/-- Fewer than `t` shares carry no information. For every accepted split and any
values of the shares at `t - 1` distinct positions, every candidate secret is
produced by exactly one choice of the coefficients; hence under uniformly random
coefficients these shares have one distribution for all secrets of a length. -/
theorem split_secrecy {secret : List Byte} {n t : Int} (positive : 1 ≤ t) (ordered : t ≤ n)
    (bounded : n ≤ 255) (nonempty : secret ≠ []) {indices : Fin (t.toNat - 1) → Nat}
    (inside : ∀ j, indices j < n.toNat) (distinct : Function.Injective indices) :
    (∀ values : Fin (t.toNat - 1) → Fin secret.length → Byte,
      ∃! random : Coefficients secret.length t,
        (split secret n t random).map (observe indices) =
          .ok fun j => some (BitVec.ofNat 8 (indices j + 1) :: List.ofFn (values j))) ∧
      ∀ secret' : List Byte, secret'.length = secret.length →
        (PMF.uniformOfFintype (Coefficients secret'.length t)).map
            (fun random => (split secret' n t random).map (observe indices)) =
          (PMF.uniformOfFintype (Coefficients secret.length t)).map
            (fun random => (split secret n t random).map (observe indices)) :=
  ⟨existsUnique_coefficients positive ordered bounded nonempty inside distinct,
    fun _ sameLength =>
      observe_distribution positive ordered bounded nonempty sameLength inside distinct⟩

/-- Shares 2 and 5 of a three-of-five split of a one-byte secret. -/
theorem split_secrecy_three_of_five :
    ∃! random : Coefficients 1 3,
      (split [42] 5 3 random).map (observe fun j : Fin 2 => [1, 4].getD j 0) =
        .ok fun j => some (BitVec.ofNat 8 ([1, 4].getD j 0 + 1) :: List.ofFn fun _ : Fin 1 => 9) :=
  (@split_secrecy [42] 5 3 (by decide) (by decide) (by decide) (by decide)
    (fun j => [1, 4].getD j 0) (by decide) (by decide)).1 fun _ _ => 9

end KnxVault.Crypto.Shamir
