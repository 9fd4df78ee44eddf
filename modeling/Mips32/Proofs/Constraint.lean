import Mips32.Fields
import Mips32.Proofs.Fields

/-!
This module contains the laws of checking constraints. Where a format has all the fields that constraints
are about, the violations of a word are the constraints that do not hold, in their order, each with the
value that the word holds instead.
-/

namespace Mips32

namespace Constraint

theorem holds_iff {constraint : Constraint} {fields : Fields} :
    constraint.holds fields = true ↔ fields.get? constraint.field = some constraint.expected := by
  simp [holds]

theorem holds_iff_value {constraint : Constraint} {fields : Fields}
    (hmem : constraint.field ∈ fields.format.fields) :
    constraint.holds fields = true ↔ fields.value constraint.field = constraint.expected := by
  rw [holds_iff, Fields.get?_eq_some_iff hmem]

theorem violation?_eq {constraint : Constraint} {fields : Fields}
    (hmem : constraint.field ∈ fields.format.fields) :
    constraint.violation? fields
      =
    if fields.value constraint.field = constraint.expected then none
    else some ⟨constraint, fields.value constraint.field⟩ := by
  unfold violation?
  rw [Fields.get?_eq_value hmem]
  simp

end Constraint

namespace Fields

/--
The violations are the constraints whose field holds another value than the expected one, in their order,
each with the value that the field holds.
-/
structure Breaks (fields : Fields) (constraints : List Constraint) (violations : List Violation) :
    Prop where
  constraints_eq : violations.map Violation.constraint
    = constraints.filter fun constraint => fields.get? constraint.field ≠ some constraint.expected
  actual_eq : ∀ violation ∈ violations,
    fields.get? violation.constraint.field = some violation.actual

variable {fields : Fields} {constraints : List Constraint}

theorem violations_eq_map (hmem : ∀ constraint ∈ constraints, constraint.field ∈ fields.format.fields) :
    fields.violations constraints
      =
    (constraints.filter fun constraint =>
        fields.get? constraint.field ≠ some constraint.expected).map fun constraint =>
      ⟨constraint, fields.value constraint.field⟩ := by
  unfold violations
  induction constraints with
  | nil => rfl
  | cons constraint rest ih =>
    have hrest := ih fun other hother => hmem other (List.mem_cons_of_mem _ hother)
    have hfirst := get?_eq_value (hmem constraint List.mem_cons_self)
    rw [List.filterMap_cons, Constraint.violation?_eq (hmem constraint List.mem_cons_self), hrest]
    by_cases hholds : fields.value constraint.field = constraint.expected
    . simp [hfirst, hholds]
    . simp [hfirst, hholds]

theorem breaks_iff (hmem : ∀ constraint ∈ constraints, constraint.field ∈ fields.format.fields)
    {violations : List Violation} :
    fields.Breaks constraints violations ↔ fields.violations constraints = violations := by
  rw [violations_eq_map hmem]
  constructor
  . rintro ⟨hconstraints, hactual⟩
    have hself : ∀ violation ∈ violations,
        Violation.mk violation.constraint (fields.value violation.constraint.field) = violation := by
      intro violation hviolation
      unfold value
      rw [hactual violation hviolation]
      rfl
    rw [← hconstraints, List.map_map]
    calc
      _ = violations.map id := List.map_congr_left hself
      _ = violations := List.map_id _
  . rintro rfl
    refine ⟨?_, ?_⟩
    . rw [List.map_map]
      apply List.map_id
    . intro violation hviolation
      rw [List.mem_map] at hviolation
      obtain ⟨constraint, hconstraint, rfl⟩ := hviolation
      exact get?_eq_value (hmem constraint (List.mem_filter.1 hconstraint).1)

theorem violations_eq_nil_iff
    (hmem : ∀ constraint ∈ constraints, constraint.field ∈ fields.format.fields) :
    fields.violations constraints = [] ↔
      ∀ constraint ∈ constraints, fields.value constraint.field = constraint.expected := by
  rw [violations_eq_map hmem]
  simp only [List.map_eq_nil_iff, List.filter_eq_nil_iff, decide_eq_true_eq, ne_eq,
    Decidable.not_not]
  apply forall₂_congr
  intro constraint hconstraint
  exact get?_eq_some_iff (hmem constraint hconstraint)

end Fields

end Mips32
