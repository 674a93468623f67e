import KnxVault.Std.Text

/-!
# Where a relative path leads

Cleaning a path that is joined to a base directory removes `..` together with the segment
in front of it, so the name may climb out of the base. A `PathWalk` is what a name does
wherever it is joined: climb some directories, then go down some segments. `leads_iff`
says when it ends at or below the base that it started from.
-/

namespace KnxVault.Std

/-- A segment that cleaning keeps. -/
structure PlainSegment (segment : List Char) : Prop where
  filled : segment ≠ []
  noSlash : '/' ∉ segment
  notHere : segment ≠ ['.']
  notParent : segment ≠ ['.', '.']

theorem not_mem_of_mem_splitOn {sep : Char} {text part : List Char}
    (mem : part ∈ text.splitOn sep) : sep ∉ part := by
  induction text generalizing part with
  | nil =>
    rw [List.splitOn_nil, List.mem_singleton] at mem
    simp [mem]
  | cons char rest ih =>
    rw [List.splitOn_cons_eq_if_modifyHead] at mem
    obtain ⟨first, others, split⟩ := List.exists_cons_of_ne_nil (List.splitOn_ne_nil sep rest)
    rw [split] at mem ih
    split at mem
    · rcases List.mem_cons.mp mem with rfl | later
      · simp
      · exact ih later
    · rename_i other
      rcases List.mem_cons.mp mem with rfl | later
      · have differs : sep ≠ char := fun same => other (beq_iff_eq.mpr same.symm)
        exact List.not_mem_cons_of_ne_of_not_mem differs (ih (List.mem_cons_self ..))
      · exact ih (List.mem_cons_of_mem _ later)

theorem plain_pushSegment {kept : List (List Char)} {segment : List Char}
    (plain : ∀ part ∈ kept, PlainSegment part) (noSlash : '/' ∉ segment) :
    ∀ part ∈ pushSegment kept segment, PlainSegment part := by
  unfold pushSegment
  split
  · exact plain
  · rename_i present
    obtain ⟨filled, notHere⟩ := not_or.mp present
    split
    · intro part mem
      exact plain part (List.mem_of_mem_dropLast mem)
    · rename_i notParent
      intro part mem
      rcases List.mem_append.mp mem with earlier | last
      · exact plain part earlier
      · rw [List.mem_singleton.mp last]
        exact ⟨filled, noSlash, notHere, notParent⟩

/-! ### Clean rooted paths -/

/-- The path from the root down the segments. -/
def rooted (segments : List (List Char)) : String :=
  String.ofList ('/' :: ['/'].intercalate segments)

/-- The segments that cleaning keeps of a rooted path. -/
def cleanSegments (text : String) : List (List Char) :=
  (text.toList.splitOn '/').foldl pushSegment []

theorem cleanRooted_eq (text : String) : cleanRooted text = rooted (cleanSegments text) := rfl

theorem plain_foldl_pushSegment {segments kept : List (List Char)}
    (noSlash : ∀ segment ∈ segments, '/' ∉ segment) (plain : ∀ part ∈ kept, PlainSegment part) :
    ∀ part ∈ segments.foldl pushSegment kept, PlainSegment part := by
  induction segments generalizing kept with
  | nil => exact plain
  | cons segment rest ih =>
    refine ih (fun other mem => noSlash other (List.mem_cons_of_mem _ mem)) ?_
    exact plain_pushSegment plain (noSlash segment (List.mem_cons_self ..))

theorem plain_cleanSegments (text : String) :
    ∀ part ∈ cleanSegments text, PlainSegment part :=
  plain_foldl_pushSegment (fun _ mem => not_mem_of_mem_splitOn mem) (by simp)

theorem splitOn_joined {segments : List (List Char)} (filled : segments ≠ [])
    (plain : ∀ part ∈ segments, PlainSegment part) :
    (['/'].intercalate segments).splitOn '/' = segments :=
  List.splitOn_intercalate '/' (fun part mem => (plain part mem).noSlash) filled

/-- A clean path determines its segments. -/
theorem rooted_inj {segments others : List (List Char)}
    (plain : ∀ part ∈ segments, PlainSegment part) (plain' : ∀ part ∈ others, PlainSegment part) :
    rooted segments = rooted others ↔ segments = others := by
  refine ⟨fun same => ?_, congrArg rooted⟩
  have joined : ['/'].intercalate segments = ['/'].intercalate others := by
    simpa [rooted] using congrArg String.toList same
  -- the root alone splits into one empty segment, which is not plain
  have empty : ∀ {parts : List (List Char)}, (∀ part ∈ parts, PlainSegment part) →
      ['/'].intercalate parts = [] → parts = [] := by
    intro parts plainParts nothing
    by_contra some
    have split := splitOn_joined some plainParts
    rw [nothing, List.splitOn_nil] at split
    exact (plainParts [] (by simp [← split])).filled rfl
  by_cases some : segments = []
  · subst some
    exact (empty plain' joined.symm).symm
  · by_cases some' : others = []
    · subst some'
      exact empty plain joined
    · rw [← splitOn_joined some plain, ← splitOn_joined some' plain', joined]

/-- A clean path starts with a directory and a slash just if it continues its segments. -/
theorem hasPrefix_rooted_iff {base segments : List (List Char)} (filled : base ≠ [])
    (plainBase : ∀ part ∈ base, PlainSegment part)
    (plain : ∀ part ∈ segments, PlainSegment part) :
    hasPrefix (rooted segments) (rooted base ++ "/") = true ↔
      ∃ below, below ≠ [] ∧ segments = base ++ below := by
  rw [hasPrefix_iff]
  constructor
  · rintro ⟨rest, split⟩
    have joined : ['/'].intercalate segments = ['/'].intercalate base ++ '/' :: rest := by
      simpa [rooted] using split
    have some : segments ≠ [] := by
      rintro rfl
      simp at joined
    refine ⟨rest.splitOn '/', List.splitOn_ne_nil _ _, ?_⟩
    rw [← splitOn_joined some plain, joined, List.splitOn_append_cons_self,
      splitOn_joined filled plainBase]
  · rintro ⟨below, some, rfl⟩
    have plainBelow : ∀ part ∈ below, PlainSegment part :=
      fun part mem => plain part (List.mem_append_right _ mem)
    have joined : ['/'].intercalate (base ++ below) =
        ['/'].intercalate base ++ '/' :: ['/'].intercalate below := by
      have whole : ['/'].intercalate ((['/'].intercalate base ++
          '/' :: ['/'].intercalate below).splitOn '/') = _ := List.intercalate_splitOn '/'
      rwa [List.splitOn_append_cons_self, splitOn_joined filled plainBase,
        splitOn_joined some plainBelow] at whole
    refine ⟨['/'].intercalate below, ?_⟩
    simp [rooted, joined]

/-! ### Walks -/

/-- Climb some directories, then go down some segments. -/
structure PathWalk where
  climbs : Nat
  kept : List (List Char)

namespace PathWalk

/-- One more segment: `..` undoes the last one, or climbs if there is none. -/
def push (walk : PathWalk) (segment : List Char) : PathWalk :=
  if segment = [] ∨ segment = ['.'] then walk
  else if segment = ['.', '.'] then
    if walk.kept = [] then ⟨walk.climbs + 1, []⟩ else ⟨walk.climbs, walk.kept.dropLast⟩
  else ⟨walk.climbs, walk.kept ++ [segment]⟩

/-- The walk of a name, wherever it starts. -/
def ofName (name : String) : PathWalk :=
  (name.toList.splitOn '/').foldl push ⟨0, []⟩

/-- Where a walk from a directory ends. -/
def start (walk : PathWalk) (base : List (List Char)) : List (List Char) :=
  base.take (base.length - walk.climbs) ++ walk.kept

theorem start_push (walk : PathWalk) (base : List (List Char)) (segment : List Char) :
    (walk.push segment).start base = pushSegment (walk.start base) segment := by
  unfold push pushSegment
  split
  · rfl
  · split
    · split
      · rename_i nothing
        simp only [start, nothing, List.append_nil, List.dropLast_eq_take, List.length_take,
          List.take_take]
        congr 1
        omega
      · rename_i some
        simp only [start, List.dropLast_append_of_ne_nil some]
    · simp only [start, List.append_assoc]

theorem start_foldl_push (segments : List (List Char)) (walk : PathWalk)
    (base : List (List Char)) :
    (segments.foldl push walk).start base = segments.foldl pushSegment (walk.start base) := by
  induction segments generalizing walk with
  | nil => rfl
  | cons segment rest ih => rw [List.foldl_cons, List.foldl_cons, ih, start_push]

/-- The name comes back down every directory that it climbs, and on to the place. -/
def Leads (base : List (List Char)) (name : String) (place : List (List Char)) : Prop :=
  (ofName name).kept = base.drop (base.length - (ofName name).climbs) ++ place

instance (base : List (List Char)) (name : String) (place : List (List Char)) :
    Decidable (Leads base name place) :=
  inferInstanceAs (Decidable (_ = _))

theorem leads_iff {base place : List (List Char)} {name : String} :
    Leads base name place ↔ (ofName name).start base = base ++ place := by
  conv => rhs; rhs; rw [← List.take_append_drop (base.length - (ofName name).climbs) base]
  rw [start, List.append_assoc, List.append_cancel_left_eq]
  exact Iff.rfl

/-- A name without a slash that cleaning keeps leads to itself. -/
theorem leads_plain {base : List (List Char)} {name : String} (plain : PlainSegment name.toList) :
    Leads base name [name.toList] := by
  have walk : ofName name = ⟨0, [name.toList]⟩ := by
    rw [ofName, List.splitOn_eq_singleton plain.noSlash, List.foldl_cons, List.foldl_nil, push,
      if_neg (not_or.mpr ⟨plain.filled, plain.notHere⟩), if_neg plain.notParent]
    rfl
  simp [Leads, walk]

end PathWalk

/-- The clean path of a name below a rooted directory. -/
def joinRooted (base name : String) : String :=
  cleanRooted (base ++ "/" ++ name)

theorem cleanSegments_join (base name : String) :
    cleanSegments (base ++ "/" ++ name) = (PathWalk.ofName name).start (cleanSegments base) := by
  have split : (base ++ "/" ++ name).toList.splitOn '/' =
      base.toList.splitOn '/' ++ name.toList.splitOn '/' := by
    rw [← List.splitOn_append_cons_self]
    simp
  have from_base : (PathWalk.mk 0 []).start (cleanSegments base) = cleanSegments base := by
    simp [PathWalk.start]
  rw [PathWalk.ofName, PathWalk.start_foldl_push, from_base, cleanSegments, split,
    List.foldl_append]
  rfl

/-- A joined path lies below its directory just if the name leads below it. -/
theorem joinRooted_inside_iff {base name : String} (filled : cleanSegments base ≠ []) :
    hasPrefix (joinRooted base name) (cleanRooted base ++ "/") = true ↔
      ∃ place, place ≠ [] ∧ PathWalk.Leads (cleanSegments base) name place := by
  rw [joinRooted, cleanRooted_eq, cleanRooted_eq,
    hasPrefix_rooted_iff filled (plain_cleanSegments _) (plain_cleanSegments _),
    cleanSegments_join]
  simp only [PathWalk.leads_iff]

/-- Two names are joined to one path just if they lead to one place. -/
theorem joinRooted_eq_iff {base name other : String} {place : List (List Char)}
    (leads : PathWalk.Leads (cleanSegments base) name place) :
    joinRooted base name = joinRooted base other ↔
      PathWalk.Leads (cleanSegments base) other place := by
  rw [joinRooted, joinRooted, cleanRooted_eq, cleanRooted_eq,
    rooted_inj (plain_cleanSegments _) (plain_cleanSegments _), cleanSegments_join,
    cleanSegments_join, PathWalk.leads_iff.mp leads, PathWalk.leads_iff, eq_comm]

/-- A place that a name leads to has plain segments. -/
theorem plain_of_leads {base name : String} {place : List (List Char)}
    (leads : PathWalk.Leads (cleanSegments base) name place) :
    ∀ part ∈ place, PlainSegment part := by
  intro part mem
  refine plain_cleanSegments (base ++ "/" ++ name) part ?_
  rw [cleanSegments_join, PathWalk.leads_iff.mp leads]
  exact List.mem_append_right _ mem

end KnxVault.Std
