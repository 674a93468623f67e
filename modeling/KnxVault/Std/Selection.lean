import KnxVault.Std.Table

/-!
# The first rows of a sorted list

A job takes the first rows of a list sorted by rank and works on those that pass a
test. Whether it finds one depends on how many rows that fail the test come first;
rows of one rank come in any order.
-/

namespace KnxVault.Std

variable {Row Rank : Type} [LinearOrder Rank] {rank : Row → Rank} {rows : List Row} {count : Nat}

/-- Rows behind the cut do not come before those ahead of it. -/
theorem rank_le_of_cut (sorted : rows.Pairwise fun row other => rank row ≤ rank other)
    {row other : Row} (ahead : row ∈ rows.take count) (behind : other ∈ rows.drop count) :
    rank row ≤ rank other := by
  rw [← List.take_append_drop count rows, List.pairwise_append] at sorted
  exact sorted.2.2 row ahead other behind

/-- If fewer rows fail the test up to a row that passes it, one that passes is taken. -/
theorem exists_mem_take (sorted : rows.Pairwise fun row other => rank row ≤ rank other)
    {test : Row → Bool} {row : Row} (listed : row ∈ rows) (passes : test row = true)
    (few : rows.countP (fun other => !test other && decide (rank other ≤ rank row)) < count) :
    ∃ other ∈ rows.take count, test other = true ∧ rank other ≤ rank row := by
  by_contra missing
  push Not at missing
  have behind : row ∈ rows.drop count := by
    rw [← List.take_append_drop count rows, List.mem_append] at listed
    rcases listed with ahead | behind
    · exact absurd (missing row ahead passes) (lt_irrefl _)
    · exact behind
  have fail : ∀ other ∈ rows.take count,
      (!test other && decide (rank other ≤ rank row)) = true := by
    intro other ahead
    have below := rank_le_of_cut sorted ahead behind
    have fails : test other = false := by
      by_contra passing
      exact absurd below (not_le.mpr (missing other ahead (by simpa using passing)))
    simp [fails, below]
  have full : (rows.take count).length = count := by
    have more := List.length_pos_of_mem behind
    rw [List.length_drop] at more
    rw [List.length_take]
    omega
  have all := List.countP_eq_length.mpr fail
  have most := (List.take_sublist count rows).countP_le
    (p := fun other => !test other && decide (rank other ≤ rank row))
  omega

/-- Fewer rows than are taken come before one of them. -/
theorem countP_lt_of_mem_take (sorted : rows.Pairwise fun row other => rank row ≤ rank other)
    {row : Row} (ahead : row ∈ rows.take count) :
    rows.countP (fun other => decide (rank other < rank row)) < count := by
  have none : (rows.drop count).countP (fun other => decide (rank other < rank row)) = 0 := by
    rw [List.countP_eq_zero]
    intro other behind
    simpa using rank_le_of_cut sorted ahead behind
  have notAll : (rows.take count).countP (fun other => decide (rank other < rank row)) <
      (rows.take count).length := by
    refine lt_of_le_of_ne List.countP_le_length fun all => ?_
    have before := List.countP_eq_length.mp all row ahead
    simp at before
  have split : rows.countP (fun other => decide (rank other < rank row)) =
      (rows.take count).countP (fun other => decide (rank other < rank row)) +
        (rows.drop count).countP fun other => decide (rank other < rank row) := by
    rw [← List.countP_append, List.take_append_drop]
  have most : (rows.take count).length ≤ count := List.length_take_le _ _
  omega

/-- A sorted list is not changed. -/
theorem sortBy_of_sorted (sorted : rows.Pairwise fun row other => rank row ≤ rank other) :
    sortBy (lessBy rank) rows = rows := by
  refine List.Pairwise.insertionSort_eq (sorted.imp fun below => ?_)
  simpa [lessBy] using below

/-- If enough rows fail the test up to every row that passes it, some order of the
visits takes none that passes. -/
theorem exists_range_unselected {base : List Row} {listed test : Row → Bool}
    (crowded : ∀ row ∈ base.filter listed, test row = true →
      count ≤ (base.filter listed).countP fun other =>
        !test other && decide (rank other ≤ rank row)) :
    ∃ range : MapRange, ∀ row ∈
      (sortBy (lessBy rank) ((range.order base).filter listed)).take count, test row = false := by
  -- visit rows that fail the test first within a rank
  let lateRank : Row → Rank ×ₗ Bool := fun row => toLex (rank row, test row)
  obtain ⟨range, visited⟩ := MapRange.exists_order (perm_sortBy (lessBy lateRank) base)
  refine ⟨range, fun row ahead => ?_⟩
  have late : ((range.order base).filter listed).Pairwise fun row other =>
      lateRank row ≤ lateRank other := by
    rw [visited]
    exact (sorted_sortBy lateRank base).filter _
  have sorted : ((range.order base).filter listed).Pairwise fun row other =>
      rank row ≤ rank other := late.imp fun below => by
    rcases Prod.Lex.le_iff.mp below with less | ⟨same, -⟩
    · exact le_of_lt less
    · exact le_of_eq same
  rw [sortBy_of_sorted sorted] at ahead
  by_contra passes
  have passes : test row = true := by simpa using passes
  have perm : ((range.order base).filter listed).Perm (base.filter listed) :=
    (range.perm base).filter _
  have many := crowded row (perm.mem_iff.mp (List.mem_of_mem_take ahead)) passes
  have fewer := countP_lt_of_mem_take late ahead
  have earlier : ((range.order base).filter listed).countP
      (fun other => !test other && decide (rank other ≤ rank row)) ≤
      ((range.order base).filter listed).countP
        fun other => decide (lateRank other < lateRank row) := by
    refine List.countP_mono_left fun other _ fails => ?_
    simp only [Bool.and_eq_true, Bool.not_eq_true', decide_eq_true_eq] at fails ⊢
    rcases lt_or_eq_of_le fails.2 with less | same
    · exact Prod.Lex.lt_iff.mpr (.inl less)
    · exact Prod.Lex.lt_iff.mpr (.inr ⟨same, by simp [lateRank, fails.1, passes]⟩)
  rw [perm.countP_eq] at earlier
  omega

end KnxVault.Std
