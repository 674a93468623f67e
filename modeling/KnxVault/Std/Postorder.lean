import Mathlib

/-!
# Depth-first expansion of a finite graph

`postorder` lists what a depth-first walk from some roots finishes, each node
after its successors. The walk takes a bound on its depth; with the number of
nodes that have successors as bound it lists exactly the nodes reached.
-/

namespace KnxVault.Std

variable {Node : Type*} (next : Node → List Node)

/-- What is reached from the roots by successors. -/
def Reached (roots : List Node) (node : Node) : Prop :=
  ∃ root ∈ roots, Relation.ReflTransGen (fun source target => target ∈ next source) root node

variable {roots : List Node} {node : Node}

theorem Reached.of_next {source : Node} (listed : source ∈ roots)
    (reached : Reached next (next source) node) :
    Reached next roots node := by
  obtain ⟨first, step, path⟩ := reached
  exact ⟨source, listed, .head step path⟩

/-- From roots without successors only the roots are reached. -/
theorem reached_of_leaf_roots (leaves : ∀ root ∈ roots, next root = []) :
    Reached next roots node ↔ node ∈ roots := by
  constructor
  · rintro ⟨root, listed, path⟩
    rcases path.cases_head with rfl | ⟨middle, step, -⟩
    · exact listed
    · rw [leaves root listed] at step
      cases step
  · intro listed
    exact ⟨node, listed, .refl⟩

theorem reached_of_leaves (leaves : ∀ node, next node = []) :
    Reached next roots node ↔ node ∈ roots :=
  reached_of_leaf_roots next fun root _ => leaves root

variable [DecidableEq Node]

/-- The nodes seen so far and those finished, in order. -/
structure Walk (Node : Type*) where
  seen : List Node
  finished : List Node

/-- Visit a batch of nodes, each with what is reached from it. -/
def visit : Nat → List Node → Walk Node → Walk Node
  | 0, _, walk => walk
  | depth + 1, batch, walk =>
    batch.foldl (fun walk node =>
      if node ∈ walk.seen then walk
      else
        let inner := visit depth (next node) ⟨node :: walk.seen, walk.finished⟩
        ⟨inner.seen, inner.finished ++ [node]⟩) walk

def postorder (bound : Nat) (roots : List Node) : List Node :=
  (visit next (bound + 1) roots ⟨[], []⟩).finished

/-- What a visit adds: the batch, all successors of what is new, and nothing that
the batch does not reach; the new nodes are those it finishes. -/
structure Visited (batch : List Node) (before after : Walk Node) : Prop where
  kept : ∀ node ∈ before.seen, node ∈ after.seen
  visited : ∀ node ∈ batch, node ∈ after.seen
  closed : ∀ node ∈ after.seen, node ∉ before.seen → ∀ target ∈ next node, target ∈ after.seen
  reached : ∀ node ∈ after.seen, node ∉ before.seen → Reached next batch node
  finished : ∀ node, node ∈ after.finished ↔
    node ∈ before.finished ∨ node ∈ after.seen ∧ node ∉ before.seen

variable {next}

omit [DecidableEq Node] in
theorem Visited.nil (walk : Walk Node) : Visited next [] walk walk where
  kept _ seen := seen
  visited _ listed := by cases listed
  closed _ seen unseen := absurd seen unseen
  reached _ seen unseen := absurd seen unseen
  finished node := by simp

/-- Visits compose along the batch. -/
theorem Visited.cons {rest : List Node} {before middle after : Walk Node}
    (first : Visited next [node] before middle) (second : Visited next rest middle after) :
    Visited next (node :: rest) before after where
  kept other seen := second.kept other (first.kept other seen)
  visited other listed := by
    rcases List.mem_cons.mp listed with rfl | later
    · exact second.kept other (first.visited other List.mem_cons_self)
    · exact second.visited other later
  closed other seen unseen target step := by
    by_cases early : other ∈ middle.seen
    · exact second.kept target (first.closed other early unseen target step)
    · exact second.closed other seen early target step
  reached other seen unseen := by
    by_cases early : other ∈ middle.seen
    · obtain ⟨root, listed, path⟩ := first.reached other early unseen
      exact ⟨root, by simp_all, path⟩
    · obtain ⟨root, listed, path⟩ := second.reached other seen early
      exact ⟨root, List.mem_cons_of_mem _ listed, path⟩
  finished other := by
    rw [second.finished, first.finished]
    have kept := second.kept other
    have early := first.kept other
    tauto

variable {walk : Walk Node}

omit [DecidableEq Node] in
theorem Visited.skip (seen : node ∈ walk.seen) :
    Visited next [node] walk walk where
  kept _ seen := seen
  visited _ listed := by rwa [List.mem_singleton.mp listed]
  closed _ seen unseen := absurd seen unseen
  reached _ seen unseen := absurd seen unseen
  finished node := by simp

/-- A node not seen before is finished after its successors. -/
theorem Visited.finish {inner : Walk Node} (unseen : node ∉ walk.seen)
    (visited : Visited next (next node) ⟨node :: walk.seen, walk.finished⟩ inner) :
    Visited next [node] walk ⟨inner.seen, inner.finished ++ [node]⟩ where
  kept other seen := visited.kept other (List.mem_cons_of_mem _ seen)
  visited other listed := by
    rw [List.mem_singleton.mp listed]
    exact visited.kept node List.mem_cons_self
  closed other seen before target step := by
    by_cases same : other = node
    · subst same
      exact visited.visited target step
    · exact visited.closed other seen (by simp [same, before]) target step
  reached other seen before := by
    by_cases same : other = node
    · subst same
      exact ⟨other, List.mem_cons_self, .refl⟩
    · exact .of_next next List.mem_cons_self (visited.reached other seen (by simp [same, before]))
  finished other := by
    have nodeSeen := visited.kept node List.mem_cons_self
    simp only [List.mem_append, visited.finished, List.mem_cons, not_or]
    by_cases same : other = node
    · subst same
      simp [nodeSeen, unseen]
    · simp [same]

/-- The nodes of a list that a walk has not seen. -/
def unseen (nodes : List Node) (walk : Walk Node) : List Node :=
  nodes.filter (· ∉ walk.seen)

variable {nodes : List Node}

theorem length_unseen_le {before after : Walk Node}
    (kept : ∀ node ∈ before.seen, node ∈ after.seen) :
    (unseen nodes after).length ≤ (unseen nodes before).length := by
  refine List.Sublist.length_le (List.monotone_filter_right nodes fun node absent => ?_)
  simp only [decide_eq_true_eq] at absent ⊢
  exact fun seen => absent (kept node seen)

theorem length_unseen_lt (listed : node ∈ nodes) (absent : node ∉ walk.seen) :
    (unseen nodes ⟨node :: walk.seen, walk.finished⟩).length < (unseen nodes walk).length := by
  have split : unseen nodes ⟨node :: walk.seen, walk.finished⟩ =
      (unseen nodes walk).filter (· ≠ node) := by
    simp only [unseen, List.filter_filter, List.mem_cons, not_or, Bool.decide_and]
  rw [split]
  exact List.length_filter_lt_length_iff_exists.mpr
    ⟨node, List.mem_filter.mpr ⟨listed, by simpa using absent⟩, by simp⟩

variable {depth : Nat}

/-- With depth for every unseen node that has successors a visit is complete. -/
theorem visit_spec (complete : ∀ node, next node ≠ [] → node ∈ nodes) {batch : List Node}
    (deep : (unseen nodes walk).length < depth ∨ batch = []) :
    Visited next batch walk (visit next depth batch walk) := by
  induction depth generalizing batch walk with
  | zero =>
    obtain impossible | rfl := deep
    · cases impossible
    · exact .nil walk
  | succ depth inner =>
    rw [visit]
    -- the depth suffices for the whole batch, since a visit only adds to what is seen
    have enough : (unseen nodes walk).length < depth + 1 ∨ batch = [] := deep
    clear deep
    induction batch generalizing walk with
    | nil => exact .nil walk
    | cons node rest ih =>
      have room : (unseen nodes walk).length < depth + 1 := by simpa using enough
      rw [List.foldl_cons]
      have first : Visited next [node] walk
          (if node ∈ walk.seen then walk
          else
            let inner := visit next depth (next node) ⟨node :: walk.seen, walk.finished⟩
            ⟨inner.seen, inner.finished ++ [node]⟩) := by
        by_cases seen : node ∈ walk.seen
        · rw [if_pos seen]
          exact .skip seen
        · rw [if_neg seen]
          refine .finish seen (inner ?_)
          by_cases leaf : next node = []
          · exact .inr leaf
          · exact .inl (by have := length_unseen_lt (complete node leaf) seen; omega)
      exact first.cons (ih (.inl (by have := @length_unseen_le _ _ nodes _ _ first.kept; omega)))

/-- Visit a node, unless it has been seen. -/
theorem visit_cons {rest : List Node} :
    visit next (depth + 1) (node :: rest) walk =
      visit next (depth + 1) rest (visit next (depth + 1) [node] walk) := rfl

theorem visit_singleton :
    visit next (depth + 1) [node] walk =
      if node ∈ walk.seen then walk
      else
        let inner := visit next depth (next node) ⟨node :: walk.seen, walk.finished⟩
        ⟨inner.seen, inner.finished ++ [node]⟩ := rfl

/-- Beyond the depth that suffices the bound does not matter. -/
theorem visit_deeper (complete : ∀ node, next node ≠ [] → node ∈ nodes) (more : Nat)
    {batch : List Node} (deep : (unseen nodes walk).length < depth ∨ batch = []) :
    visit next (depth + more) batch walk = visit next depth batch walk := by
  induction depth generalizing batch walk with
  | zero =>
    obtain impossible | rfl := deep
    · cases impossible
    · cases more <;> rfl
  | succ depth inner =>
    rw [Nat.add_right_comm]
    have enough : (unseen nodes walk).length < depth + 1 ∨ batch = [] := deep
    clear deep
    induction batch generalizing walk with
    | nil => rfl
    | cons node rest ih =>
      have room : (unseen nodes walk).length < depth + 1 := by simpa using enough
      have first : visit next (depth + more + 1) [node] walk =
          visit next (depth + 1) [node] walk := by
        rw [visit_singleton, visit_singleton]
        by_cases seen : node ∈ walk.seen
        · rw [if_pos seen, if_pos seen]
        · rw [if_neg seen, if_neg seen, inner]
          by_cases leaf : next node = []
          · exact .inr leaf
          · exact .inl (by have := length_unseen_lt (complete node leaf) seen; omega)
      have visited : Visited next [node] walk (visit next (depth + 1) [node] walk) :=
        visit_spec complete (.inl room)
      have later := @length_unseen_le _ _ nodes _ _ visited.kept
      calc visit next (depth + more + 1) (node :: rest) walk
          = visit next (depth + more + 1) rest (visit next (depth + more + 1) [node] walk) :=
            visit_cons
        _ = visit next (depth + more + 1) rest (visit next (depth + 1) [node] walk) := by rw [first]
        _ = visit next (depth + 1) rest (visit next (depth + 1) [node] walk) :=
            ih (.inl (by omega))

theorem postorder_deeper (complete : ∀ node, next node ≠ [] → node ∈ nodes) {bound : Nat}
    (enough : nodes.length ≤ bound) (roots : List Node) :
    postorder next bound roots = postorder next nodes.length roots := by
  obtain ⟨more, rfl⟩ := Nat.exists_eq_add_of_le enough
  unfold postorder
  rw [Nat.add_right_comm, visit_deeper complete more (.inl (by simp [unseen]))]

/-- The walk lists exactly what the roots reach. -/
theorem mem_postorder_iff (complete : ∀ node, next node ≠ [] → node ∈ nodes) :
    node ∈ postorder next nodes.length roots ↔ Reached next roots node := by
  have visited : Visited next roots ⟨[], []⟩ (visit next (nodes.length + 1) roots ⟨[], []⟩) :=
    visit_spec complete (.inl (by simp [unseen]))
  have seen : node ∈ postorder next nodes.length roots ↔
      node ∈ (visit next (nodes.length + 1) roots ⟨[], []⟩).seen := by
    rw [postorder, visited.finished]
    simp
  rw [seen]
  clear seen
  constructor
  · exact fun present => visited.reached node present (by simp)
  · rintro ⟨root, listed, path⟩
    induction path with
    | refl => exact visited.visited root listed
    | tail _ step ih => exact visited.closed _ ih (by simp) _ step

end KnxVault.Std
