import PlanOrbits.Plan.Validation

/-!
# What validation accepts

`validate` goes through the operators once and stops at the first fault. It succeeds
exactly if the plan keeps all rules of `PartialPlan.WellFormed`, and what it reports
otherwise is a rule that the plan breaks (`breaks_of_validate`). In a plan that is accepted the
first and the last operator have names of their own, by which they are told from the steps
(`isPseudo_iff`).
-/

namespace PlanOrbits

theorem PlanError.family_diagnostic (cause : PlanError) : cause.diagnostic.family = .plan := by
  cases cause <;> rfl

/-- Every argument of every condition is declared if and only if the search finds none that is not.
-/
theorem Operator.undeclared?_eq_none_iff {op : Operator} :
    op.undeclared? = none ↔ op.DeclaresVariables := by
  simp only [undeclared?, List.findSome?_eq_none_iff, Option.map_eq_none_iff,
    List.find?_eq_none, DeclaresVariables, List.mem_append]
  refine forall₂_congr fun l _ => forall₂_congr fun v _ => ?_
  simp

/-- What the search finds is an argument of a condition, and it is not declared. -/
theorem Operator.mem_of_undeclared? {op : Operator} {l : Literal} {v : Variable}
    (h : op.undeclared? = some (l, v)) :
    l ∈ op.preconditions ++ op.postconditions ∧ v ∈ l.atom.args ∧ v ∉ op.vars := by
  obtain ⟨l', hl, hfind⟩ := List.exists_of_findSome?_eq_some h
  obtain ⟨v', hv, heq⟩ := Option.map_eq_some_iff.1 hfind
  cases heq
  refine ⟨hl, List.mem_of_find?_eq_some hv, ?_⟩
  simpa using List.find?_some hv

namespace PartialPlan

/-- The check passes a list of operators, behind those whose names are `seen`, if their names are
new and different and each operator declares its variables. The induction is for every `seen`, which
grows by a name at each operator. -/
theorem checkOperators_eq_ok_iff {seen : List String} {ops : List Operator} :
    checkOperators seen ops = .ok () ↔
      (∀ op ∈ ops, op.name ∉ seen) ∧ (ops.map (·.name)).Nodup ∧
        ∀ op ∈ ops, op.DeclaresVariables := by
  induction ops generalizing seen with
  | nil => simp [checkOperators]
  | cons op ops ih =>
      rw [checkOperators, List.map_cons, List.nodup_cons]
      simp only [List.forall_mem_cons]
      -- the name is compared first, then the variables of this operator, then the others
      by_cases hseen : op.name ∈ seen
      · simp [hseen]
      · rw [if_neg (by simpa using hseen)]
        cases hundeclared : op.undeclared? with
        | none =>
            have hop := Operator.undeclared?_eq_none_iff.1 hundeclared
            simp only [ih, List.mem_cons, not_or, List.mem_map, not_exists, not_and]
            constructor
            · rintro ⟨hnot, hnodup, hall⟩
              exact ⟨⟨hseen, fun o ho => (hnot o ho).2⟩, ⟨fun o ho => (hnot o ho).1, hnodup⟩,
                hop, hall⟩
            · rintro ⟨⟨-, hnot⟩, ⟨hne, hnodup⟩, -, hall⟩
              exact ⟨fun o ho => ⟨hne o ho, hnot o ho⟩, hnodup, hall⟩
        | some offence =>
            have hop : ¬op.DeclaresVariables := by
              rw [← Operator.undeclared?_eq_none_iff, hundeclared]
              simp
            simp [hop]

/-- `validate` accepts exactly the well-formed plans: the rules on the two pseudo steps are checked
first, then the operators. -/
theorem validate_eq_ok_iff {p : PartialPlan} : p.validate = .ok () ↔ p.WellFormed := by
  rw [validate]
  constructor
  · intro h
    split at h
    · cases h
    · rename_i hinit
      split at h
      · cases h
      · rename_i hgoal
        obtain ⟨-, hnodup, hdeclares⟩ := checkOperators_eq_ok_iff.1 h
        simp only [not_or, ne_eq, Decidable.not_not] at hinit hgoal
        exact ⟨hinit.1, hinit.2, hgoal.1, hgoal.2, hnodup, hdeclares⟩
  · intro h
    rw [if_neg (by simp [h.init_name, h.init_pre]), if_neg (by simp [h.goal_name, h.goal_post])]
    exact checkOperators_eq_ok_iff.2 ⟨by simp, h.names_nodup, h.declares⟩

/-- A plan is made of its parts if and only if it is accepted. -/
theorem build_eq (p : PartialPlan) :
    build p.domain p.problem p.init p.goal p.steps p.substitution = p.validate.map fun _ => p := by
  rw [build]
  cases p.validate <;> rfl

/-! ### What is reported -/

/-- A rule that the plan breaks, and how it is reported. -/
inductive Breaks (p : PartialPlan) : PlanError → Prop where
  | init (h : p.init.name ≠ initName ∨ p.init.preconditions ≠ []) :
      Breaks p (.malformedInit p.init.name)
  | goal (h : p.goal.name ≠ goalName ∨ p.goal.postconditions ≠ []) :
      Breaks p (.malformedGoal p.goal.name)
  | duplicate {before after : List Operator} {op : Operator}
      (hops : p.operators = before ++ op :: after) (h : op.name ∈ before.map (·.name)) :
      Breaks p (.duplicateOperator op.name)
  | undeclared {op : Operator} {l : Literal} {v : Variable} (hop : op ∈ p.operators)
      (hl : l ∈ op.preconditions ++ op.postconditions) (hv : v ∈ l.atom.args)
      (h : v ∉ op.vars) : Breaks p (.undeclaredVariable op.name l v)

/-- The check stops at an operator that has a name from before, or with an argument that the
operator does not declare. -/
theorem exists_of_checkOperators_eq_error {seen : List String} {ops : List Operator}
    {cause : PlanError} (h : checkOperators seen ops = .error cause) :
    ∃ before op after, ops = before ++ op :: after ∧
      ((cause = .duplicateOperator op.name ∧ op.name ∈ before.map (·.name) ++ seen) ∨
        ∃ l v, cause = .undeclaredVariable op.name l v ∧ op.undeclared? = some (l, v)) := by
  induction ops generalizing seen with
  | nil => cases h
  | cons op ops ih =>
      rw [checkOperators] at h
      split at h
      · rename_i hseen
        cases h
        exact ⟨[], op, ops, rfl, .inl ⟨rfl, List.contains_iff_mem.1 hseen⟩⟩
      · split at h
        · rename_i l v hundeclared
          cases h
          exact ⟨[], op, ops, rfl, .inr ⟨l, v, rfl, hundeclared⟩⟩
        · obtain ⟨before, op', after, rfl, hfault⟩ := ih h
          refine ⟨op :: before, op', after, rfl, hfault.imp_left fun ⟨hcause, hname⟩ => ?_⟩
          -- a name that was seen is that of an operator in front, or from before the list
          refine ⟨hcause, ?_⟩
          simp only [List.map_cons, List.mem_append, List.mem_cons] at hname ⊢
          grind

/-- Every error names a rule that the plan breaks, with the operator, the literal or the variable
that breaks it. -/
theorem breaks_of_validate {p : PartialPlan} {cause : PlanError}
    (h : p.validate = .error cause) : p.Breaks cause := by
  rw [validate] at h
  split at h
  · rename_i hinit
    cases h
    exact .init hinit
  · split at h
    · rename_i hgoal
      cases h
      exact .goal hgoal
    · obtain ⟨before, op, after, hops, ⟨rfl, hname⟩ | ⟨l, v, rfl, hfound⟩⟩ :=
        exists_of_checkOperators_eq_error h
      · rw [List.append_nil] at hname
        exact .duplicate hops hname
      · obtain ⟨hl, hv, hnot⟩ := Operator.mem_of_undeclared? hfound
        exact .undeclared (hops ▸ List.mem_append_right _ List.mem_cons_self) hl hv hnot

/-! ### Brackets -/

/-- Operators with one name are one operator, at one place. -/
theorem WellFormed.eq_of_name_eq {p : PartialPlan} (h : p.WellFormed) {i j : Nat}
    {op op' : Operator} (hop : p.operators[i]? = some op) (hop' : p.operators[j]? = some op')
    (hname : op.name = op'.name) : i = j := by
  obtain ⟨hi, -⟩ := List.getElem?_eq_some_iff.1 hop
  refine (List.getElem?_inj ((List.length_map Operator.name).symm ▸ hi) h.names_nodup).1 ?_
  rw [List.getElem?_map, List.getElem?_map, hop, hop', Option.map_some, Option.map_some, hname]

/-- `isPseudo` compares names. In an accepted plan it holds of the first and the last operator and
of no others. -/
theorem WellFormed.isPseudo_iff {p : PartialPlan} (h : p.WellFormed) {i : Nat} {op : Operator}
    (hop : p.operators[i]? = some op) :
    p.isPseudo op = true ↔ i = 0 ∨ i + 1 = p.operators.length := by
  have hfirst : p.operators[0]? = some p.init := rfl
  have hlast : p.operators[p.steps.length + 1]? = some p.goal := by simp [operators]
  have hlength : p.operators.length = p.steps.length + 2 := by simp [operators]
  rw [isPseudo, Bool.or_eq_true, beq_iff_eq, beq_iff_eq]
  constructor
  · rintro (hinit | hgoal)
    · exact .inl (h.eq_of_name_eq hop hfirst hinit)
    · have hi := h.eq_of_name_eq hop hlast hgoal
      exact .inr (by omega)
  · rintro (rfl | hi)
    · exact .inl (congrArg Operator.name (Option.some.inj (hop.symm.trans hfirst)))
    · obtain rfl : i = p.steps.length + 1 := by omega
      exact .inr (congrArg Operator.name (Option.some.inj (hop.symm.trans hlast)))

end PartialPlan

end PlanOrbits
