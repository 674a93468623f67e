import Mathlib

/-!
# Coefficient lists and Lagrange interpolation

Polynomials over a field given by their coefficient list, constant term first.
`lagrangeAt_eq_eval` recovers a polynomial's value from enough of its points;
`existsUnique_tail` says that the constant term leaves the remaining
coefficients in bijection with the values at as many non-zero nodes.
-/

namespace KnxVault.Std

open Polynomial

variable {F : Type*} [Field F]

/-- Horner evaluation of the coefficients, constant term first. -/
def hornerEval (coeffs : List F) (x : F) : F :=
  coeffs.foldr (fun coeff value => value * x + coeff) 0

/-- The polynomial with the given coefficients, constant term first. -/
noncomputable def coeffPoly : List F → F[X]
  | [] => 0
  | coeff :: rest => coeffPoly rest * X + C coeff

theorem eval_coeffPoly (coeffs : List F) (x : F) :
    (coeffPoly coeffs).eval x = hornerEval coeffs x := by
  induction coeffs with
  | nil => simp [coeffPoly, hornerEval]
  | cons coeff rest ih =>
    simp only [coeffPoly, eval_add, eval_mul, eval_X, eval_C, ih]
    rfl

/-- A coefficient list has fewer degrees than entries. -/
theorem degree_coeffPoly_lt (coeffs : List F) :
    (coeffPoly coeffs).degree < coeffs.length := by
  induction coeffs with
  | nil => simp [coeffPoly]
  | cons coeff rest ih =>
    have shifted : (coeffPoly rest * X).degree < ((rest.length + 1 : Nat) : WithBot Nat) := by
      rw [degree_mul, degree_X]
      by_cases zero : coeffPoly rest = 0
      · simp [zero]
      · rw [degree_eq_natDegree zero] at ih ⊢
        exact_mod_cast Nat.succ_lt_succ (by exact_mod_cast ih)
    have constant : (C coeff : F[X]).degree < ((rest.length + 1 : Nat) : WithBot Nat) :=
      lt_of_le_of_lt degree_C_le (by exact_mod_cast Nat.succ_pos _)
    simpa [coeffPoly] using
      lt_of_le_of_lt (degree_add_le (coeffPoly rest * X) (C coeff)) (max_lt shifted constant)

theorem coeff_coeffPoly (coeffs : List F) (index : Nat) :
    (coeffPoly coeffs).coeff index = coeffs.getD index 0 := by
  induction coeffs generalizing index with
  | nil => simp [coeffPoly]
  | cons coeff rest ih =>
    cases index with
    | zero => simp [coeffPoly]
    | succ index => simp [coeffPoly, coeff_C_succ, ih]

/-- Every polynomial of degree below `count` is the polynomial of its first
`count` coefficients. -/
theorem coeffPoly_ofFn_coeff {count : Nat} {poly : F[X]} (bounded : poly.degree < count) :
    coeffPoly (List.ofFn fun index : Fin count => poly.coeff index) = poly := by
  ext index
  rw [coeff_coeffPoly]
  by_cases inside : index < count
  · simp [List.getD, inside]
  · have zero : poly.coeff index = 0 :=
      coeff_eq_zero_of_degree_lt
        (lt_of_lt_of_le bounded (by exact_mod_cast Nat.le_of_not_lt inside))
    simp [List.getD, inside, zero]

/-- Lagrange's formula at `x` through the points `(node i, value i)`. -/
def lagrangeAt {count : Nat} (node value : Fin count → F) (x : F) : F :=
  ∑ i, value i * ((∏ j ∈ Finset.univ.erase i, (x - node j)) /
    ∏ j ∈ Finset.univ.erase i, (node i - node j))

/-- Lagrange's formula through distinct nodes returns every polynomial that has
fewer degrees than there are nodes and passes through the points. -/
theorem lagrangeAt_eq_eval {count : Nat} {node value : Fin count → F} {poly : F[X]}
    (distinct : Function.Injective node) (bounded : poly.degree < count)
    (passes : ∀ i, poly.eval (node i) = value i) (x : F) :
    lagrangeAt node value x = poly.eval x := by
  have interpolated : poly = Lagrange.interpolate Finset.univ node value :=
    Lagrange.eq_interpolate_of_eval_eq _ distinct.injOn (by simpa using bounded)
      (fun i _ => passes i)
  rw [interpolated, Lagrange.interpolate_apply, eval_finsetSum]
  refine Finset.sum_congr rfl fun i _ => ?_
  simp only [Lagrange.basis, Lagrange.basisDivisor, eval_mul, eval_C, eval_prod, eval_sub, eval_X,
    Finset.prod_mul_distrib, Finset.prod_inv_distrib]
  rw [div_eq_mul_inv, mul_comm (∏ j ∈ Finset.univ.erase i, (x - node j))]

/-- Two coefficient lists of one length with one constant term that agree at as
many distinct non-zero nodes as there are other coefficients are equal. -/
theorem tail_unique {count : Nat} {node : Fin count → F} (distinct : Function.Injective node)
    (nonzero : ∀ i, node i ≠ 0) {head : F} {left right : Fin count → F}
    (agree : ∀ i, hornerEval (head :: List.ofFn left) (node i) =
      hornerEval (head :: List.ofFn right) (node i)) : left = right := by
  have sameTail : coeffPoly (List.ofFn left) = coeffPoly (List.ofFn right) := by
    refine eq_of_degrees_lt_of_eval_index_eq Finset.univ distinct.injOn ?_ ?_ fun i _ => ?_
    · simpa using degree_coeffPoly_lt (List.ofFn left)
    · simpa using degree_coeffPoly_lt (List.ofFn right)
    · rw [eval_coeffPoly, eval_coeffPoly]
      have scaled := agree i
      simp only [hornerEval, List.foldr_cons, add_left_inj] at scaled
      exact mul_right_cancel₀ (nonzero i) scaled
  funext i
  have coeffs := congrArg (fun poly => poly.coeff i) sameTail
  simpa [coeff_coeffPoly, List.getD] using coeffs

/-- Given the constant term, exactly one choice of the other coefficients takes
prescribed values at as many distinct non-zero nodes. -/
theorem existsUnique_tail {count : Nat} {node : Fin count → F}
    (distinct : Function.Injective node) (nonzero : ∀ i, node i ≠ 0) (head : F)
    (value : Fin count → F) :
    ∃! tail : Fin count → F, ∀ i, hornerEval (head :: List.ofFn tail) (node i) = value i := by
  -- The tail is the polynomial through the points `(node i, (value i - head) / node i)`.
  let poly := Lagrange.interpolate Finset.univ node fun i => (value i - head) / node i
  have bounded : poly.degree < count := by
    have below := Lagrange.degree_interpolate_lt (fun i => (value i - head) / node i)
      (distinct.injOn (s := (Finset.univ : Finset (Fin count))))
    rwa [Finset.card_univ, Fintype.card_fin] at below
  have passes : ∀ i,
      hornerEval (head :: List.ofFn fun i : Fin count => poly.coeff i) (node i) = value i := by
    intro i
    have tailValue : hornerEval (List.ofFn fun i : Fin count => poly.coeff i) (node i) =
        (value i - head) / node i := by
      rw [← eval_coeffPoly, coeffPoly_ofFn_coeff bounded]
      exact Lagrange.eval_interpolate_at_node _ distinct.injOn (Finset.mem_univ i)
    change hornerEval (List.ofFn fun i : Fin count => poly.coeff i) (node i) * node i + head =
      value i
    rw [tailValue, div_mul_cancel₀ _ (nonzero i), sub_add_cancel]
  exact ⟨fun i => poly.coeff i, passes, fun other otherPasses =>
    tail_unique distinct nonzero fun i => (otherPasses i).trans (passes i).symm⟩

end KnxVault.Std
