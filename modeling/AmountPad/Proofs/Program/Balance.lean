import AmountPad.Program.Arrangement
import Mathlib

/-!
# The height of the value stack

Every instruction that is carried out changes the height of the stack by an
amount that can be told from the instruction alone: a number adds one value, a
sign none, and an operator between two values takes one away.  The balance of a
program is the sum of these amounts.

An arrangement changes the order of the instructions and nothing else, so the
balance of a program can be read off its tokens in reading order.  A program
whose balance is not positive cannot leave a value.
-/

namespace AmountPad

/-- What an action adds to the height of the stack. -/
def Action.effect : Action → Int
  | negate => 0
  | apply _ => -1

/-- What an instruction adds to the height of the stack. -/
def Instruction.effect : Instruction → Int
  | push _ => 1
  | perform action => action.effect

namespace Program

/-- What a program adds to the height of the stack. -/
def balance (program : Program) : Int :=
  (program.map Instruction.effect).sum

@[simp]
theorem balance_nil : balance [] = 0 :=
  rfl

@[simp]
theorem balance_cons (instruction : Instruction) (program : Program) :
    balance (instruction :: program) = instruction.effect + balance program :=
  rfl

/-- The order of the instructions does not matter to the balance. -/
theorem balance_perm {first second : Program} (perm : first.Perm second) :
    first.balance = second.balance :=
  (perm.map Instruction.effect).sum_eq

end Program

/-! ## Execution -/

/-- Two calculations in turn have a result if both have one. -/
theorem bind_eq_ok_iff {ε α β : Type} {first : Except ε α} {next : α → Except ε β} {b : β} :
    first.bind next = .ok b ↔ ∃ a, first = .ok a ∧ next a = .ok b := by
  cases first <;> simp [Except.bind]

/-- An action that is carried out has its effect on the height, and leaves a
value. -/
theorem Action.length_perform {action : Action} {stack next : List Float}
    (performed : action.perform stack = .ok next) :
    (next.length : Int) = stack.length + action.effect ∧ next ≠ [] := by
  cases action with
  | negate =>
      cases stack with
      | nil => cases performed
      | cons x rest =>
          cases performed
          simp [effect]
  | apply operator =>
      rcases stack with _ | ⟨right, _ | ⟨left, rest⟩⟩
      · cases performed
      · cases performed
      · rw [perform] at performed
        cases result : operator.compute left right with
        | error fault =>
            rw [result] at performed
            cases performed
        | ok x =>
            rw [result] at performed
            cases performed
            simp only [effect, List.length_cons]
            exact ⟨by omega, by simp⟩

theorem Instruction.length_execute {instruction : Instruction} {stack next : List Float}
    (executed : instruction.execute stack = .ok next) :
    (next.length : Int) = stack.length + instruction.effect ∧ next ≠ [] := by
  cases instruction with
  | push x =>
      cases executed
      simp [effect]
  | perform action => exact Action.length_perform executed

namespace Program

/-- A program that is carried out has its balance as its effect on the height. -/
theorem length_execute {program : Program} {stack result : List Float}
    (executed : execute stack program = .ok result) :
    (result.length : Int) = stack.length + program.balance := by
  induction program generalizing stack with
  | nil =>
      cases executed
      simp
  | cons instruction program inductionHypothesis =>
      rw [execute_cons, bind_eq_ok_iff] at executed
      obtain ⟨next, first, executed⟩ := executed
      have rest := inductionHypothesis executed
      have height := (Instruction.length_execute first).1
      rw [balance_cons]
      omega

/-- The last instruction leaves a value. -/
theorem ne_nil_of_execute {program : Program} {stack result : List Float}
    (nonempty : program ≠ []) (executed : execute stack program = .ok result) :
    result ≠ [] := by
  rcases List.eq_nil_or_concat program with isEmpty | ⟨front, last, rfl⟩
  · exact absurd isEmpty nonempty
  · rw [List.concat_eq_append, execute_append, bind_eq_ok_iff] at executed
    obtain ⟨next, _, executed⟩ := executed
    rw [execute_cons, bind_eq_ok_iff] at executed
    obtain ⟨left, lastExecuted, executed⟩ := executed
    cases executed
    exact (Instruction.length_execute lastExecuted).2

/-- A program that takes away as many values as it adds is not carried out to its
end. -/
theorem exists_execute_eq_error {program : Program} (nonempty : program ≠ [])
    (short : program.balance ≤ 0) : ∃ fault, execute [] program = .error fault := by
  cases executed : execute [] program with
  | ok result =>
      have height := length_execute executed
      have positive := List.length_pos_iff.mpr (ne_nil_of_execute nonempty executed)
      rw [List.length_nil] at height
      omega
  | error fault => exact ⟨fault, rfl⟩

end Program

/-! ## Reading order -/

namespace Token

/-- What a token becomes in its place. -/
def instruction (afterNumber : Bool) : Token → Instruction
  | number value => .push value
  | operator symbol => .perform (.ofOperator afterNumber symbol)

/-- Whether a token is a number. -/
def isNumber : Token → Bool
  | number _ => true
  | operator _ => false

end Token

/-- The instructions of a list of tokens in reading order. -/
def Program.inOrder (afterNumber : Bool) : List Token → Program
  | [] => []
  | token :: tokens => token.instruction afterNumber :: inOrder token.isNumber tokens

namespace Arrangement

/-- Taking a token adds its instruction. -/
theorem perm_program_add (arrangement : Arrangement) (token : Token) :
    (arrangement.add token).program.Perm
      (arrangement.program ++ [token.instruction arrangement.afterNumber]) := by
  cases token with
  | number value =>
      simp only [add, program, Token.instruction, List.reverse_cons, List.append_assoc]
      exact List.perm_append_comm.append_left _
  | operator operator =>
      let incoming := Action.ofOperator arrangement.afterNumber operator
      have held : arrangement.held.takeWhile (·.precedes incoming) ++
          arrangement.held.dropWhile (·.precedes incoming) = arrangement.held :=
        List.takeWhile_append_dropWhile
      have heldMap := congrArg (List.map Instruction.perform) held
      rw [List.map_append] at heldMap
      simp only [add, program, Token.instruction, List.reverse_append, List.reverse_reverse,
        List.map_cons, List.append_assoc]
      rw [← heldMap, List.append_assoc]
      -- what stays is held below the incoming action
      exact ((List.perm_append_singleton _ _).symm.append_left _).append_left _

@[simp]
theorem afterNumber_add (arrangement : Arrangement) (token : Token) :
    (arrangement.add token).afterNumber = token.isNumber := by
  cases token <;> rfl

/-- The program of an arrangement has the instructions of its tokens. -/
theorem perm_program_foldl_add (arrangement : Arrangement) (tokens : List Token) :
    (tokens.foldl add arrangement).program.Perm
      (arrangement.program ++ Program.inOrder arrangement.afterNumber tokens) := by
  induction tokens generalizing arrangement with
  | nil => simp [Program.inOrder]
  | cons token tokens inductionHypothesis =>
      have rest := inductionHypothesis (arrangement.add token)
      have first := arrangement.perm_program_add token
      rw [afterNumber_add] at rest
      rw [List.foldl_cons, Program.inOrder, ← List.singleton_append, ← List.append_assoc]
      exact rest.trans (first.append_right _)

end Arrangement

/-- The postfix order is another order of the instructions. -/
theorem Program.perm_ofTokens (tokens : List Token) :
    (ofTokens tokens).Perm (inOrder false tokens) :=
  Arrangement.perm_program_foldl_add {} tokens

end AmountPad
