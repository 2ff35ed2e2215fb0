import Mathlib.Tactic

/-!
# Paths resolved by their text

A path is a sequence of components. A component without a name stays where it is, `..`
leads one directory up, and every other component leads down into the directory of its
name. A walk along the components starts in some directory, whose own name and parents
are not known, and ends at a place that is so many directories up from the start and from
there so many down. The walk ends in a directory of the start or below it exactly when
the components can be counted in a certain way.
-/

namespace Path

/-- What one component does. -/
inductive Step (Name : Type)
  | stay
  | up
  | down (name : Name)
  deriving DecidableEq

namespace Step

variable {Name : Type}

/-- The component is "..". -/
def isUp : Step Name -> Bool
  | .up => true
  | _ => false

/-- The component is a name. -/
def isDown : Step Name -> Bool
  | .down _ => true
  | _ => false

@[simp] theorem isUp_stay : (stay : Step Name).isUp = false := rfl

@[simp] theorem isUp_up : (up : Step Name).isUp = true := rfl

@[simp] theorem isUp_down (name : Name) : (down name).isUp = false := rfl

@[simp] theorem isDown_stay : (stay : Step Name).isDown = false := rfl

@[simp] theorem isDown_up : (up : Step Name).isDown = false := rfl

@[simp] theorem isDown_down (name : Name) : (down name).isDown = true := rfl

end Step

/-- A place as it is seen from the start of a walk. -/
structure Place (Name : Type) where
  /-- So many directories up from the start. -/
  ups : Nat
  /-- The directories down from there, the innermost first. -/
  below : List Name
  deriving DecidableEq

variable {Name : Type}

namespace Place

/-- The start of every walk. -/
def start : Place Name := ⟨0, []⟩

/-- The place after one more component. -/
def move (place : Place Name) : Step Name -> Place Name
  | .stay => place
  | .up =>
      match place.below with
      | [] => ⟨place.ups + 1, []⟩
      | _ :: outer => ⟨place.ups, outer⟩
  | .down name => ⟨place.ups, name :: place.below⟩

/-- The place is the directory `root` of the start or below it. -/
def Inside (root : Name) (place : Place Name) : Prop :=
  place.ups = 0 ∧ place.below.getLast? = some root

instance [DecidableEq Name] (root : Name) (place : Place Name) :
    Decidable (place.Inside root) :=
  inferInstanceAs (Decidable (_ ∧ _))

@[simp] theorem move_stay (place : Place Name) : place.move .stay = place := rfl

@[simp] theorem move_up_nil (ups : Nat) :
    (⟨ups, []⟩ : Place Name).move .up = ⟨ups + 1, []⟩ := rfl

@[simp] theorem move_up_cons (ups : Nat) (name : Name) (outer : List Name) :
    (⟨ups, name :: outer⟩ : Place Name).move .up = ⟨ups, outer⟩ := rfl

@[simp] theorem move_down (place : Place Name) (name : Name) :
    place.move (.down name) = ⟨place.ups, name :: place.below⟩ := rfl

/-- A step up that does not leave the start has left a directory below it. -/
theorem of_move_ups
    {place : Place Name}
    {step : Step Name}
    (noUps : (place.move step).ups = 0) :
    place.ups = 0 ∧ (step = .up -> ∃ name outer, place.below = name :: outer) := by
  rcases place with ⟨height, below⟩
  cases step with
  | stay => exact ⟨noUps, fun isUp => absurd isUp (by simp)⟩
  | down name => exact ⟨noUps, fun isUp => absurd isUp (by simp)⟩
  | up =>
      rcases below with _ | ⟨name, outer⟩
      · exact absurd noUps (by simp)
      · exact ⟨noUps, fun _ => ⟨name, outer, rfl⟩⟩

end Place

/-- The place at the end of a walk. -/
def walk (steps : List (Step Name)) : Place Name :=
  steps.foldl Place.move .start

@[simp] theorem walk_nil : walk ([] : List (Step Name)) = .start := rfl

@[simp] theorem walk_append_singleton (steps : List (Step Name)) (step : Step Name) :
    walk (steps ++ [step]) = (walk steps).move step := by
  unfold walk
  rw [List.foldl_append, List.foldl_cons, List.foldl_nil]

/-! ## Counting components -/

/-- How many components lead up. -/
def ups (steps : List (Step Name)) : Nat :=
  steps.countP Step.isUp

/-- How many components lead down. -/
def downs (steps : List (Step Name)) : Nat :=
  steps.countP Step.isDown

@[simp] theorem ups_nil : ups ([] : List (Step Name)) = 0 := rfl

@[simp] theorem downs_nil : downs ([] : List (Step Name)) = 0 := rfl

/-- The steps upwards of two paths behind each other. -/
@[simp] theorem ups_append (front back : List (Step Name)) :
    ups (front ++ back) = ups front + ups back :=
  List.countP_append

/-- The steps downwards of two paths behind each other. -/
@[simp] theorem downs_append (front back : List (Step Name)) :
    downs (front ++ back) = downs front + downs back :=
  List.countP_append

/-- The first step upwards counts. -/
@[simp] theorem ups_cons (step : Step Name) (steps : List (Step Name)) :
    ups (step :: steps) = ups steps + if step.isUp then 1 else 0 :=
  List.countP_cons

/-- The first step downwards counts. -/
@[simp] theorem downs_cons (step : Step Name) (steps : List (Step Name)) :
    downs (step :: steps) = downs steps + if step.isDown then 1 else 0 :=
  List.countP_cons

theorem ups_cons_down (name : Name) (steps : List (Step Name)) :
    ups (.down name :: steps) = ups steps := by
  rw [ups_cons, Step.isUp_down]
  rfl

theorem downs_cons_down (name : Name) (steps : List (Step Name)) :
    downs (.down name :: steps) = downs steps + 1 := by
  rw [downs_cons, Step.isDown_down]
  rfl

/-- No front part of the components leads further up than `height` directories. -/
def Climbs (height : Nat) (steps : List (Step Name)) : Prop :=
  ∀ front : List (Step Name), front <+: steps -> ups front ≤ downs front + height

namespace Climbs

variable {height : Nat} {steps : List (Step Name)}

/-- No path climbs less than the empty one. -/
theorem nil (height : Nat) : Climbs height ([] : List (Step Name)) := by
  intro front isPrefix
  rw [List.prefix_nil.mp isPrefix]
  simp

/-- A longer path has one more front part, itself. -/
theorem append_singleton_iff (step : Step Name) :
    Climbs height (steps ++ [step]) ↔
      Climbs height steps ∧
        ups (steps ++ [step]) ≤ downs (steps ++ [step]) + height := by
  constructor
  · intro climbs
    refine ⟨?_, climbs _ (List.prefix_refl _)⟩
    intro front isPrefix
    exact climbs front (isPrefix.trans (List.prefix_append _ _))
  · rintro ⟨climbs, whole⟩ front isPrefix
    rcases List.prefix_concat_iff.mp isPrefix with rfl | shorter
    · exact whole
    · exact climbs front shorter

/-- A path that does not climb over a height has few steps upwards. -/
theorem whole (climbs : Climbs height steps) : ups steps ≤ downs steps + height :=
  climbs steps (List.prefix_refl _)

/-- A name in front gives one more directory to leave again. -/
theorem cons_down_iff (name : Name) :
    Climbs height (.down name :: steps) ↔ Climbs (height + 1) steps := by
  constructor
  · intro climbs front isPrefix
    have longer := climbs (.down name :: front) (List.cons_prefix_cons.mpr ⟨rfl, isPrefix⟩)
    rw [ups_cons_down, downs_cons_down] at longer
    omega
  · intro climbs front isPrefix
    rcases front with _ | ⟨step, front⟩
    · simp
    · obtain ⟨rfl, shorter⟩ := List.cons_prefix_cons.mp isPrefix
      have counted := climbs front shorter
      rw [ups_cons_down, downs_cons_down]
      omega

/-- An empty component changes no count. -/
theorem cons_stay_iff : Climbs height (.stay :: steps) ↔ Climbs height steps := by
  constructor
  · intro climbs front isPrefix
    simpa using climbs (.stay :: front) (List.cons_prefix_cons.mpr ⟨rfl, isPrefix⟩)
  · intro climbs front isPrefix
    rcases front with _ | ⟨step, front⟩
    · simp
    · obtain ⟨rfl, shorter⟩ := List.cons_prefix_cons.mp isPrefix
      simpa using climbs front shorter

end Climbs

/-! ## Where a walk ends -/

/-- A walk that never leaves the start upwards is as deep as its counts say. -/
theorem length_below_walk
    {steps : List (Step Name)}
    (climbs : Climbs 0 steps) :
    (walk steps).ups = 0 ∧ (walk steps).below.length + ups steps = downs steps := by
  induction steps using List.reverseRecOn with
  | nil => simp [Place.start]
  | append_singleton steps step inductionHypothesis =>
      obtain ⟨shorter, whole⟩ := (Climbs.append_singleton_iff step).mp climbs
      obtain ⟨noUps, depth⟩ := inductionHypothesis shorter
      rw [walk_append_singleton, ups_append, downs_append]
      rw [ups_append, downs_append] at whole
      rcases place : walk steps with ⟨height, below⟩
      rw [place] at noUps depth
      change height = 0 at noUps
      change below.length + ups steps = downs steps at depth
      cases step with
      | stay => simpa using ⟨noUps, depth⟩
      | down name =>
          refine ⟨noUps, ?_⟩
          change below.length + 1 + (ups steps + 0) = downs steps + 1
          omega
      | up =>
          change ups steps + 1 ≤ downs steps + 0 + 0 at whole
          rcases below with _ | ⟨name, outer⟩
          · change 0 + ups steps = downs steps at depth
            omega
          · refine ⟨noUps, ?_⟩
            change outer.length + 1 + ups steps = downs steps at depth
            change outer.length + (ups steps + 1) = downs steps + 0
            omega

/-- A walk that ends with the start or below it has never left it upwards. -/
theorem climbs_of_walk_ups
    {steps : List (Step Name)}
    (noUps : (walk steps).ups = 0) :
    Climbs 0 steps := by
  induction steps using List.reverseRecOn with
  | nil => exact Climbs.nil 0
  | append_singleton steps step inductionHypothesis =>
      rw [walk_append_singleton] at noUps
      obtain ⟨before, leaves⟩ := Place.of_move_ups noUps
      have climbs := inductionHypothesis before
      have whole := climbs.whole
      refine (Climbs.append_singleton_iff step).mpr ⟨climbs, ?_⟩
      rw [ups_append, downs_append]
      cases step with
      | stay => exact whole
      | down name =>
          rw [ups_cons_down, downs_cons_down, ups_nil]
          omega
      | up =>
          obtain ⟨-, depth⟩ := length_below_walk climbs
          obtain ⟨name, outer, below⟩ := leaves rfl
          rw [below, List.length_cons] at depth
          change ups steps + 1 ≤ downs steps + 0 + 0
          omega

/-- What a walk does that stays below its start does not depend on what is above. -/
theorem walk_append
    (before : List (Step Name))
    {after : List (Step Name)}
    (climbs : Climbs 0 after) :
    walk (before ++ after) =
      ⟨(walk before).ups, (walk after).below ++ (walk before).below⟩ := by
  induction after using List.reverseRecOn with
  | nil => simp [Place.start]
  | append_singleton after step inductionHypothesis =>
      obtain ⟨shorter, -⟩ := (Climbs.append_singleton_iff step).mp climbs
      obtain ⟨noUps, -⟩ := length_below_walk climbs
      rw [← List.append_assoc, walk_append_singleton, inductionHypothesis shorter]
      rw [walk_append_singleton] at noUps ⊢
      obtain ⟨-, leaves⟩ := Place.of_move_ups noUps
      rcases place : walk after with ⟨height, below⟩
      rw [place] at leaves
      cases step with
      | stay => rfl
      | down name => rfl
      | up =>
          obtain ⟨name, outer, rfl⟩ := leaves rfl
          rfl

/-- The components lead `height` directories up and never further, from there into
`root`, and never out of it again. -/
def Enters (height : Nat) (root : Name) (steps : List (Step Name)) : Prop :=
  ∃ before after : List (Step Name),
    steps = before ++ .down root :: after ∧
      Climbs height before ∧ ups before = downs before + height ∧ Climbs 0 after

namespace Enters

variable {height : Nat} {root : Name} {steps : List (Step Name)}

/-- A further component keeps the entry when the walk does not leave `root` by it. -/
theorem append_singleton
    (enters : Enters 0 root steps)
    (step : Step Name)
    (deep : ups (steps ++ [step]) < downs (steps ++ [step])) :
    Enters 0 root (steps ++ [step]) := by
  obtain ⟨before, after, rfl, beforeClimbs, balanced, afterClimbs⟩ := enters
  refine ⟨before, after ++ [step], by simp, beforeClimbs, balanced, ?_⟩
  apply (Climbs.append_singleton_iff step).mpr
  refine ⟨afterClimbs, ?_⟩
  rw [ups_append, downs_append, ups_append, downs_append, ups_cons_down,
    downs_cons_down] at deep
  rw [ups_append, downs_append]
  omega

/-- A name in front is the entry itself, or has to be left again. -/
theorem cons_down_iff (name : Name) :
    Enters height root (.down name :: steps) ↔
      (height = 0 ∧ name = root ∧ Climbs 0 steps) ∨ Enters (height + 1) root steps := by
  constructor
  · rintro ⟨before, after, equal, beforeClimbs, balanced, afterClimbs⟩
    rcases before with _ | ⟨step, before⟩
    · left
      simp only [List.nil_append, List.cons.injEq, Step.down.injEq] at equal
      obtain ⟨rfl, rfl⟩ := equal
      refine ⟨?_, rfl, afterClimbs⟩
      simpa using balanced.symm
    · right
      simp only [List.cons_append, List.cons.injEq] at equal
      obtain ⟨rfl, rfl⟩ := equal
      have climbs := (Climbs.cons_down_iff name).mp beforeClimbs
      refine ⟨before, after, rfl, climbs, ?_, afterClimbs⟩
      rw [ups_cons_down, downs_cons_down] at balanced
      omega
  · rintro (⟨rfl, rfl, climbs⟩ | ⟨before, after, rfl, beforeClimbs, balanced, afterClimbs⟩)
    · exact ⟨[], steps, rfl, Climbs.nil 0, rfl, climbs⟩
    · have climbs := (Climbs.cons_down_iff name).mpr beforeClimbs
      refine ⟨.down name :: before, after, rfl, climbs, ?_, afterClimbs⟩
      rw [ups_cons_down, downs_cons_down]
      omega

/-- An empty component in front changes nothing. -/
theorem cons_stay_iff :
    Enters height root (.stay :: steps) ↔ Enters height root steps := by
  constructor
  · rintro ⟨before, after, equal, beforeClimbs, balanced, afterClimbs⟩
    rcases before with _ | ⟨step, before⟩
    · exact absurd (List.cons.inj equal).1 (by simp)
    · simp only [List.cons_append, List.cons.injEq] at equal
      obtain ⟨rfl, rfl⟩ := equal
      have climbs := Climbs.cons_stay_iff.mp beforeClimbs
      exact ⟨before, after, rfl, climbs, by simpa using balanced, afterClimbs⟩
  · rintro ⟨before, after, rfl, beforeClimbs, balanced, afterClimbs⟩
    have climbs := Climbs.cons_stay_iff.mpr beforeClimbs
    exact ⟨.stay :: before, after, rfl, climbs, by simpa using balanced, afterClimbs⟩

end Enters

/-- A path that goes into the root ends in it. -/
theorem inside_of_enters
    {root : Name}
    {steps : List (Step Name)}
    (enters : Enters 0 root steps) :
    (walk steps).Inside root := by
  obtain ⟨before, after, rfl, beforeClimbs, balanced, afterClimbs⟩ := enters
  obtain ⟨noUps, depth⟩ := length_below_walk beforeClimbs
  have back : (walk before).below = [] := by
    apply List.eq_nil_of_length_eq_zero
    omega
  rw [List.append_cons, walk_append _ afterClimbs, walk_append_singleton]
  refine ⟨noUps, ?_⟩
  change ((walk after).below ++ root :: (walk before).below).getLast? = some root
  rw [back, List.getLast?_concat]

/-- A path that ends in the root goes into it. -/
theorem enters_of_inside
    {root : Name}
    {steps : List (Step Name)}
    (inside : (walk steps).Inside root) :
    Enters 0 root steps := by
  induction steps using List.reverseRecOn with
  | nil => exact absurd inside.2 (by simp [Place.start])
  | append_singleton steps step inductionHypothesis =>
      obtain ⟨noUps, outermost⟩ := inside
      have climbs := climbs_of_walk_ups noUps
      have deep : ups (steps ++ [step]) < downs (steps ++ [step]) := by
        obtain ⟨-, depth⟩ := length_below_walk climbs
        have someName : (walk (steps ++ [step])).below ≠ [] := by
          intro none
          rw [none] at outermost
          exact absurd outermost (by simp)
        have := List.length_pos_of_ne_nil someName
        omega
      have shorter := ((Climbs.append_singleton_iff step).mp climbs).1
      obtain ⟨before, -⟩ := length_below_walk shorter
      rw [walk_append_singleton] at outermost
      rcases place : walk steps with ⟨height, below⟩
      rw [place] at before outermost inductionHypothesis
      cases step with
      | stay => exact (inductionHypothesis ⟨before, outermost⟩).append_singleton _ deep
      | up =>
          rcases below with _ | ⟨name, outer⟩
          · exact absurd outermost (by simp)
          · rw [Place.move_up_cons] at outermost
            refine (inductionHypothesis ⟨before, ?_⟩).append_singleton _ deep
            simp [List.getLast?_cons, outermost]
      | down name =>
          rcases below with _ | ⟨last, outer⟩
          · -- The walk is at its start and enters `root` now.
            obtain ⟨-, depth⟩ := length_below_walk shorter
            rw [place] at depth
            simp at outermost depth
            subst outermost
            exact ⟨steps, [], rfl, shorter, depth, Climbs.nil 0⟩
          · rw [Place.move_down] at outermost
            refine (inductionHypothesis ⟨before, ?_⟩).append_singleton _ deep
            simpa [List.getLast?_cons] using outermost

/-- The end of a walk is inside a directory of the start exactly when its components
enter the directory from the start. -/
theorem inside_iff
    {root : Name}
    {steps : List (Step Name)} :
    (walk steps).Inside root ↔ Enters 0 root steps :=
  ⟨enters_of_inside, inside_of_enters⟩

/-! ## Paths as text -/

section

variable {α : Type} [DecidableEq α]

/-- What a component does. -/
def step (dot : α) (component : List α) : Step (List α) :=
  if component = [] ∨ component = [dot] then .stay
  else if component = [dot, dot] then .up
  else .down component

/-- The components of a relative path. -/
def steps (slash dot : α) (path : List α) : List (Step (List α)) :=
  (path.splitOn slash).map (step dot)

/-- The place of a relative path. -/
def resolve (slash dot : α) (path : List α) : Place (List α) :=
  walk (steps slash dot path)

/-- Every other component is a name. -/
theorem step_eq_down
    {dot : α}
    {component : List α}
    (named : component ≠ [] ∧ component ≠ [dot] ∧ component ≠ [dot, dot]) :
    step dot component = .down component := by
  unfold step
  rw [if_neg, if_neg named.2.2]
  rintro (empty | single)
  · exact named.1 empty
  · exact named.2.1 single

/-- A text without a slash in front of a path belongs to its first component. -/
theorem splitOn_append
    {slash : α}
    {front path first : List α}
    {rest : List (List α)}
    (clean : slash ∉ front)
    (pieces : path.splitOn slash = first :: rest) :
    (front ++ path).splitOn slash = (front ++ first) :: rest := by
  induction front with
  | nil => exact pieces
  | cons head tail inductionHypothesis =>
      rw [List.mem_cons, not_or] at clean
      unfold List.splitOn at inductionHypothesis ⊢
      rw [List.cons_append, List.splitOnP_cons_eq_if_modifyHead,
        inductionHypothesis clean.2, if_neg]
      · rfl
      · simpa using Ne.symm clean.1

end

end Path
