import AmountPad.Program.Failure
import AmountPad.Proofs.Calculation.Shape

/-!
# What a program stands for

A program that runs to its end stands for a row of trees: it lists them in postfix
order, and their values lie on the stack, the last one uppermost.  Trees can be told
from their postfix order, so a program has a value exactly if it is the postfix order
of one tree that has that value.

A program that does not run to its end has a first instruction that is not carried
out, an action that is starved or an operator that is refused.  Otherwise the height
of the stack is counted by the numbers and the operators of the program.
-/

namespace AmountPad

/-! ## Trees on the stack -/

namespace Program

/-- A row of trees, the last one first: the program lists them in turn, and the stack
holds their values. -/
structure Plants (program : Program) (trees : List Expression) (stack : List Float) :
    Prop where
  program_eq : program = trees.reverse.flatMap Expression.program
  values : List.Forall₂ (fun tree x => tree.value = .ok x) trees stack

/-- A number is a tree of its own, and an action makes one tree of the last ones. -/
theorem Plants.execute {program : Program} {trees : List Expression}
    {stack next : List Float} {instruction : Instruction} (plants : Plants program trees stack)
    (executed : instruction.execute stack = .ok next) :
    ∃ grown, Plants (program ++ [instruction]) grown next := by
  obtain ⟨rfl, values⟩ := plants
  cases instruction with
  | push x =>
      cases executed
      exact ⟨.number x :: trees, by simp [Expression.program], .cons rfl values⟩
  | perform action =>
      cases action with
      | negate =>
          cases values with
          | nil => cases executed
          | @cons tree x trees stack treeValue values =>
              cases executed
              refine ⟨.negate tree :: trees, by simp [Expression.program], .cons ?_ values⟩
              rw [Expression.value, treeValue]
              rfl
      | apply operator =>
          rcases values with _ | ⟨rightValue, _ | ⟨leftValue, values⟩⟩
          · cases executed
          · cases executed
          · rename_i right y left x trees stack
            rw [Instruction.execute, Action.perform] at executed
            cases result : operator.compute x y with
            | error fault =>
                rw [result] at executed
                cases executed
            | ok z =>
                rw [result] at executed
                cases executed
                refine ⟨.binary operator left right :: trees, by simp [Expression.program],
                  .cons ?_ values⟩
                rw [Expression.value, leftValue, rightValue]
                exact result

/-- A program leaves a stack exactly if it plants trees with the values on it. -/
theorem execute_eq_ok_iff {program : Program} {stack : List Float} :
    execute [] program = .ok stack ↔ ∃ trees, Plants program trees stack := by
  constructor
  · intro executed
    induction program using List.reverseRecOn generalizing stack with
    | nil =>
        cases executed
        exact ⟨[], rfl, .nil⟩
    | append_singleton front last inductionHypothesis =>
        rw [execute_append, bind_eq_ok_iff] at executed
        obtain ⟨middle, frontExecuted, lastExecuted⟩ := executed
        rw [execute_cons, bind_eq_ok_iff] at lastExecuted
        obtain ⟨next, lastExecuted, isNext⟩ := lastExecuted
        cases isNext
        obtain ⟨trees, plants⟩ := inductionHypothesis frontExecuted
        exact plants.execute lastExecuted
  · rintro ⟨trees, rfl, values⟩
    induction values with
    | nil => rfl
    | @cons tree x trees stack treeValue _ inductionHypothesis =>
        rw [List.reverse_cons, List.flatMap_append, List.flatMap_singleton, execute_append,
          inductionHypothesis]
        simp only [Except.bind, tree.execute_program, treeValue]
        rfl

/-- A program has a value if it leaves that value alone. -/
theorem value_eq_ok_iff {program : Program} {x : Float} :
    program.value = .ok x ↔ execute [] program = .ok [x] := by
  unfold value
  split
  · rename_i y executed
    simp [executed]
  · rename_i notSingle executed
    rw [executed]
    simp only [reduceCtorEq, Except.ok.injEq, false_iff]
    rintro rfl
    exact notSingle x rfl
  · rename_i fault executed
    simp [executed]

/-- A program has a value exactly if it is the postfix order of a tree with that
value, and of no other tree. -/
theorem value_eq_ok_iff_exists_tree {program : Program} {x : Float} :
    program.value = .ok x ↔
      ∃ tree : Expression,
        (∀ other : Expression, other.program = program ↔ other = tree) ∧
          tree.value = .ok x := by
  rw [value_eq_ok_iff, execute_eq_ok_iff]
  constructor
  · rintro ⟨trees, programEq, values⟩
    cases values with
    | @cons tree _ trees _ treeValue values =>
        cases values
        have listed : program = tree.program := by simpa using programEq
        refine ⟨tree, ?_, treeValue⟩
        intro other
        rw [listed]
        exact Expression.program_injective.eq_iff
  · rintro ⟨tree, listed, treeValue⟩
    refine ⟨[tree], ?_, .cons treeValue .nil⟩
    simpa using ((listed tree).mpr rfl).symm

/-! ## The first instruction that is not carried out -/

/-- A program fails with the fault of its first instruction that fails. -/
theorem execute_eq_error_iff {stack : List Float} {program : Program}
    {fault : EvaluationFault} :
    execute stack program = .error fault ↔
      ∃ before instruction after middle,
        program = before ++ instruction :: after ∧
          execute stack before = .ok middle ∧
          Instruction.execute middle instruction = .error fault := by
  constructor
  · intro failed
    induction program generalizing stack with
    | nil => cases failed
    | cons first rest inductionHypothesis =>
        cases executed : first.execute stack with
        | error other =>
            rw [execute_cons, executed] at failed
            cases failed
            exact ⟨[], first, rest, stack, rfl, rfl, executed⟩
        | ok next =>
            rw [execute_cons, executed] at failed
            obtain ⟨before, instruction, after, middle, rfl, runs, fails⟩ :=
              inductionHypothesis failed
            refine ⟨first :: before, instruction, after, middle, rfl, ?_, fails⟩
            rw [execute_cons, executed]
            exact runs
  · rintro ⟨before, instruction, after, middle, rfl, runs, fails⟩
    rw [execute_append, runs]
    simp only [Except.bind, execute_cons, fails]

end Program

/-- An action fails if it is short of an operand, or if its operator has no result. -/
theorem Action.perform_eq_error_iff {action : Action} {stack : List Float}
    {fault : EvaluationFault} :
    action.perform stack = .error fault ↔
      (fault = .missingOperand ∧ stack.length < action.arity) ∨
        ∃ operator right left rest,
          action = .apply operator ∧ stack = right :: left :: rest ∧
            operator.compute left right = .error fault := by
  cases action with
  | negate =>
      rcases stack with _ | ⟨x, rest⟩
      · simp [perform, arity, eq_comm]
      · simp [perform, arity]
  | apply operator =>
      rcases stack with _ | ⟨right, _ | ⟨left, rest⟩⟩
      · simp [perform, arity, eq_comm]
      · simp [perform, arity, eq_comm]
      · cases result : operator.compute left right <;>
          simp [perform, arity, Except.map, result]

namespace Program

/-- A program that does not run to its end is starved or refused. -/
theorem execute_eq_error_iff_starved_or_refused {program : Program}
    {fault : EvaluationFault} :
    execute [] program = .error fault ↔
      (fault = .missingOperand ∧ program.IsStarved) ∨ program.IsRefused fault := by
  rw [execute_eq_error_iff]
  constructor
  · rintro ⟨before, instruction, after, stack, rfl, runs, fails⟩
    cases instruction with
    | push x => cases fails
    | perform action =>
        rcases Action.perform_eq_error_iff.mp fails with
          ⟨isMissing, short⟩ | ⟨operator, right, left, rest, rfl, rfl, refuses⟩
        · exact .inl ⟨isMissing, before, action, after, stack, rfl, runs, short⟩
        · exact .inr ⟨before, operator, after, right, left, rest, rfl, runs, refuses⟩
  · rintro (⟨rfl, before, action, after, stack, rfl, runs, short⟩ |
      ⟨before, operator, after, right, left, rest, rfl, runs, refuses⟩)
    · exact ⟨before, _, after, stack, rfl, runs,
        Action.perform_eq_error_iff.mpr (.inl ⟨rfl, short⟩)⟩
    · exact ⟨before, _, after, _, rfl, runs,
        Action.perform_eq_error_iff.mpr (.inr ⟨operator, right, left, rest, rfl, rfl, refuses⟩)⟩

/-- An operator that refuses its operands divides by zero or leaves the finite
numbers. -/
theorem IsRefused.fault_cases {program : Program} {fault : EvaluationFault}
    (refused : program.IsRefused fault) : fault = .divisionByZero ∨ fault = .notFinite := by
  obtain ⟨_, operator, _, right, left, _, _, _, refuses⟩ := refused
  have answer := operator.isAnswer_compute left right
  rw [refuses] at answer
  cases answer with
  | divisionByZero => exact .inl rfl
  | notFinite => exact .inr rfl

/-! ## Counting -/

/-- The balance of a program counts its numbers and its operators between two
values. -/
theorem balance_eq_countP_sub_countP (program : Program) :
    program.balance =
      (program.countP Instruction.isPush : Int) - program.countP Instruction.isApply := by
  induction program with
  | nil => rfl
  | cons instruction program inductionHypothesis =>
      rw [balance_cons, inductionHypothesis, List.countP_cons, List.countP_cons]
      rcases instruction with x | _ | operator <;>
        simp [Instruction.effect, Action.effect, Instruction.isPush, Instruction.isApply] <;>
        omega

/-- A fault other than that of too many values is that of an instruction. -/
theorem value_eq_error_iff {program : Program} {fault : EvaluationFault}
    (other : fault ≠ .notSingle) :
    program.value = .error fault ↔ execute [] program = .error fault := by
  unfold value
  split
  · rename_i x executed
    simp [executed]
  · rename_i executed
    simp [executed, other.symm]
  · rename_i executed
    simp [executed]

/-- A program runs to its end if no action is starved and no operator refused. -/
theorem execute_ne_error_iff {program : Program} :
    (∀ fault, execute [] program ≠ .error fault) ↔
      ¬ program.IsStarved ∧ ∀ fault, ¬ program.IsRefused fault := by
  simp only [ne_eq, execute_eq_error_iff_starved_or_refused, not_or, not_and]
  constructor
  · intro runs
    exact ⟨(runs .missingOperand).1 rfl, fun fault => (runs fault).2⟩
  · rintro ⟨fed, accepted⟩ fault
    exact ⟨fun _ => fed, accepted fault⟩

/-- A program that runs to its end leaves a single value exactly if its balance is
one. -/
theorem value_eq_notSingle_iff {program : Program} :
    program.value = .error .notSingle ↔
      (∀ fault, execute [] program ≠ .error fault) ∧ program.balance ≠ 1 := by
  cases executed : execute [] program with
  | error fault =>
      have failed : program.value = .error fault := by rw [value, executed]
      have other : fault ≠ .notSingle := by
        rintro rfl
        exact execute_ne_notSingle program [] executed
      simp [failed, other]
  | ok stack =>
      have height := length_execute executed
      rw [List.length_nil] at height
      rcases stack with _ | ⟨x, _ | ⟨y, rest⟩⟩
      all_goals
        simp only [List.length_nil, List.length_cons] at height
        simp [value, executed]
        omega

/-- A program has a value exactly if it is the postfix order of one tree with that
value.  It has the fault of its first action that is starved or refused, if there is
one, and otherwise fails if its numbers are not one more than its operators between
two values. -/
theorem value_eq_iff_of_postfix (program : Program) :
    (∀ x, program.value = .ok x ↔
        ∃ tree : Expression,
          (∀ other : Expression, other.program = program ↔ other = tree) ∧
            tree.value = .ok x) ∧
      (program.value = .error .missingOperand ↔ program.IsStarved) ∧
      (∀ fault, program.IsRefused fault ↔
        program.value = .error fault ∧ (fault = .divisionByZero ∨ fault = .notFinite)) ∧
      (program.value = .error .notSingle ↔
        ¬ program.IsStarved ∧ (∀ fault, ¬ program.IsRefused fault) ∧
          (program.countP Instruction.isPush : Int) -
            program.countP Instruction.isApply ≠ 1) := by
  have isOther {fault : EvaluationFault}
      (answers : fault = .divisionByZero ∨ fault = .notFinite) :
      fault ≠ .notSingle ∧ fault ≠ .missingOperand := by
    rcases answers with rfl | rfl <;> decide
  refine ⟨fun x => value_eq_ok_iff_exists_tree, ?_, ?_, ?_⟩
  · have notRefused : ¬ program.IsRefused .missingOperand :=
      fun refused => (isOther refused.fault_cases).2 rfl
    rw [value_eq_error_iff (by decide), execute_eq_error_iff_starved_or_refused]
    simp [notRefused]
  · intro fault
    constructor
    · intro refused
      have other := isOther refused.fault_cases
      refine ⟨(value_eq_error_iff other.1).mpr ?_, refused.fault_cases⟩
      exact execute_eq_error_iff_starved_or_refused.mpr (.inr refused)
    · rintro ⟨failed, answers⟩
      have other := isOther answers
      rw [value_eq_error_iff other.1, execute_eq_error_iff_starved_or_refused] at failed
      exact failed.resolve_left fun starved => other.2 starved.1
  · rw [value_eq_notSingle_iff, execute_ne_error_iff, balance_eq_countP_sub_countP, and_assoc]

/-- A division by zero ends a program before the operator that is short of an operand,
and a starved operator ends it before the division. -/
example :
    value [.push 1, .push 0, .perform (.apply .divide), .perform (.apply .plus)] =
        .error .divisionByZero ∧
      value [.push 1, .perform (.apply .plus), .push 0, .perform (.apply .divide)] =
        .error .missingOperand := by
  decide +kernel

end Program

end AmountPad
