import AmountPad.Program.ReadingOrder
import AmountPad.Proofs.Expression.Arrangement
import AmountPad.Proofs.Program.Balance

/-!
# Arranging keeps every token

Arranging tokens moves operators behind the numbers that follow them and changes nothing
else, whether the tokens make up an expression or not: numbers stay in their order, and no
instruction is lost or comes twice.

Nothing that is held would go out before what has been held back later.  So at most one sum
is held below at most one product, and below signs.  This is kept while actions leave one by
one, since what is still held is a lower part of what was.
-/

namespace AmountPad

/-! ## Instructions -/

theorem Token.instructionBehind_eq (before : Option Token) (token : Token) :
    Token.instructionBehind before token =
      token.instruction (before.any Token.isNumber) := by
  rcases token with value | operator
  · rfl
  · rcases before with _ | _ | _ <;> cases operator <;> rfl

/-- The instructions in reading order behind some token. -/
theorem Program.zipWith_instructionBehind (before : Option Token) (tokens : List Token) :
    List.zipWith Token.instructionBehind (before :: tokens.map some) tokens =
      inOrder (before.any Token.isNumber) tokens := by
  induction tokens generalizing before with
  | nil => rfl
  | cons token tokens inductionHypothesis =>
      rw [List.map_cons, List.zipWith_cons_cons, inductionHypothesis, inOrder,
        Token.instructionBehind_eq]
      rfl

theorem Program.readingOrder_eq (tokens : List Token) :
    readingOrder tokens = inOrder false tokens :=
  zipWith_instructionBehind none tokens

theorem Program.length_readingOrder (tokens : List Token) :
    (readingOrder tokens).length = tokens.length := by
  simp [readingOrder]

/-! ## Numbers -/

/-- Actions push no numbers. -/
theorem filterMap_value?_map_perform (actions : List Action) :
    (actions.map Instruction.perform).filterMap Instruction.value? = [] := by
  rw [List.filterMap_map, List.filterMap_eq_nil_iff]
  exact fun _ _ => rfl

namespace Arrangement

/-- All numbers have gone out. -/
theorem filterMap_value?_program (arrangement : Arrangement) :
    arrangement.program.filterMap Instruction.value? =
      arrangement.done.reverse.filterMap Instruction.value? := by
  rw [program, List.filterMap_append, filterMap_value?_map_perform, List.append_nil]

/-- A number goes behind the numbers before it. -/
theorem filterMap_value?_program_add (arrangement : Arrangement) (token : Token) :
    (arrangement.add token).program.filterMap Instruction.value? =
      arrangement.program.filterMap Instruction.value? ++ [token].filterMap Token.value? := by
  rw [filterMap_value?_program, filterMap_value?_program]
  cases token with
  | number value =>
      rw [add, List.reverse_cons, List.filterMap_append]
      rfl
  | operator operator =>
      rw [add, List.reverse_append, List.reverse_reverse, List.filterMap_append,
        filterMap_value?_map_perform]
      rfl

theorem filterMap_value?_program_foldl_add (arrangement : Arrangement) (tokens : List Token) :
    (tokens.foldl add arrangement).program.filterMap Instruction.value? =
      arrangement.program.filterMap Instruction.value? ++ tokens.filterMap Token.value? := by
  induction tokens generalizing arrangement with
  | nil => simp
  | cons token tokens inductionHypothesis =>
      rw [List.foldl_cons, inductionHypothesis, filterMap_value?_program_add, List.append_assoc,
        ← List.filterMap_append, List.singleton_append]

/-! ## Layers -/

/-- What is held, the latest first, where nothing goes out before what is above it. -/
def IsStacked (held : List Action) : Prop :=
  held.Pairwise fun upper lower => lower.precedes upper = false

end Arrangement

theorem Action.rank_pos (action : Action) : 0 < action.rank := by
  rcases action with _ | operator
  · decide
  · cases operator <;> decide

/-- What stays below a held action stays below what that one stays below. -/
theorem Action.precedes_trans {lower middle upper : Action}
    (lowerStays : lower.precedes middle = false) (middleStays : middle.precedes upper = false) :
    lower.precedes upper = false := by
  rcases upper with _ | upper
  · exact lower.precedes_negate
  · rw [precedes_apply] at middleStays ⊢
    rcases middle with _ | middle
    · cases upper <;> cases middleStays
    · rw [precedes_apply] at lowerStays
      simp only [decide_eq_false_iff_not] at *
      omega

namespace Arrangement

/-- What is left below an action that comes in stays below it. -/
theorem IsStacked.cons_dropWhile {held : List Action} (stacked : IsStacked held)
    (incoming : Action) : IsStacked (incoming :: held.dropWhile (·.precedes incoming)) := by
  have left : IsStacked (held.dropWhile (·.precedes incoming)) :=
    List.Pairwise.sublist (List.dropWhile_sublist _) stacked
  refine List.pairwise_cons.mpr ⟨?_, left⟩
  cases leftEq : held.dropWhile (·.precedes incoming) with
  | nil => simp
  | cons top rest =>
      have topStays : top.precedes incoming = false := by
        have head := List.head?_dropWhile_not (·.precedes incoming) held
        rw [leftEq] at head
        exact head
      rw [leftEq, IsStacked, List.pairwise_cons] at left
      intro lower member
      rcases List.mem_cons.mp member with rfl | below
      · exact topStays
      · exact Action.precedes_trans (left.1 lower below) topStays

/-- Taking a token keeps what is held in order. -/
theorem isStacked_held_add {arrangement : Arrangement} (stacked : IsStacked arrangement.held)
    (token : Token) : IsStacked (arrangement.add token).held := by
  cases token with
  | number value => exact stacked
  | operator operator => exact stacked.cons_dropWhile _

theorem isStacked_held_foldl_add {arrangement : Arrangement}
    (stacked : IsStacked arrangement.held) (tokens : List Token) :
    IsStacked (tokens.foldl add arrangement).held := by
  induction tokens generalizing arrangement with
  | nil => exact stacked
  | cons token tokens inductionHypothesis =>
      exact inductionHypothesis (isStacked_held_add stacked token)

/-- Only a sum binds less tightly than a product. -/
theorem IsLayered.of_rank_lt {held : List Action} {sum product : Option Operator} {signs : Nat}
    (layered : IsLayered held sum product signs) (low : ∀ action ∈ held, action.rank < 2) :
    product = none ∧ signs = 0 := by
  have lowLayers : ∀ action ∈ (sum.toList ++ product.toList).map Action.apply ++
      List.replicate signs Action.negate, action.rank < 2 := by
    rw [← layered.held_eq]
    intro action member
    exact low action (List.mem_reverse.mp member)
  constructor
  · cases product with
    | none => rfl
    | some operator =>
        have isLow := lowLayers (.apply operator) (by simp)
        rcases layered.isProduct operator rfl with rfl | rfl
        · exact absurd isLow (by decide)
        · exact absurd isLow (by decide)
  · cases signs with
    | zero => rfl
    | succ signs =>
        exact absurd (lowLayers .negate (by simp [List.replicate_succ])) (by decide)

/-- Nothing is held below a sum, and no more than a sum below a product. -/
theorem IsLayered.exists_cons_apply {held : List Action} {sum product : Option Operator}
    {signs : Nat} {operator : Operator} (layered : IsLayered held sum product signs)
    (lower : ∀ action ∈ held, action.rank < (Action.apply operator).rank) :
    ∃ sum product signs, IsLayered (.apply operator :: held) sum product signs := by
  by_cases isSum : operator = .plus ∨ operator = .minus
  · have isBottom : held = [] := by
      rw [List.eq_nil_iff_forall_not_mem]
      intro action member
      have isLow := lower action member
      have positive := action.rank_pos
      rcases isSum with rfl | rfl <;> exact absurd isLow (Nat.not_lt.mpr positive)
    -- no action has a lower rank than a sum
    refine ⟨some operator, none, 0, ?_, by simpa using isSum, by simp⟩
    rw [isBottom]
    rfl
  · have isProduct : operator = .times ∨ operator = .divide := by
      cases operator <;> simp at isSum ⊢
    have low : ∀ action ∈ held, action.rank < 2 := by
      rcases isProduct with rfl | rfl <;> exact lower
    obtain ⟨rfl, rfl⟩ := layered.of_rank_lt low
    refine ⟨sum, some operator, 0, ?_, layered.isSum, by simpa using isProduct⟩
    rw [List.reverse_cons, layered.held_eq]
    simp

/-- What is held in order lies in layers. -/
theorem IsStacked.exists_isLayered {held : List Action} (stacked : IsStacked held) :
    ∃ sum product signs, IsLayered held sum product signs := by
  induction held with
  | nil => exact ⟨none, none, 0, rfl, by simp, by simp⟩
  | cons top held inductionHypothesis =>
      obtain ⟨below, rest⟩ := List.pairwise_cons.mp stacked
      obtain ⟨sum, product, signs, layered⟩ := inductionHypothesis rest
      cases top with
      | negate =>
          refine ⟨sum, product, signs + 1, ?_, layered.isSum, layered.isProduct⟩
          rw [List.reverse_cons, layered.held_eq, List.append_assoc, ← List.replicate_succ']
      | apply operator =>
          apply layered.exists_cons_apply
          intro action member
          have stays := below action member
          rw [Action.precedes_apply, decide_eq_false_iff_not] at stays
          omega

end Arrangement

/-- The program of any list of tokens has its numbers in their order and is an order of the
instructions that the tokens are where they stand.  What is held after some tokens, and what
is still held of that while actions leave, lies in layers. -/
theorem ofTokens_perm_readingOrder (tokens : List Token) :
    (Program.ofTokens tokens).length = tokens.length ∧
      (Program.ofTokens tokens).filterMap Instruction.value? =
        tokens.filterMap Token.value? ∧
      (Program.ofTokens tokens).Perm (Program.readingOrder tokens) ∧
      ∀ taken left : Nat, ∃ sum product signs,
        Arrangement.IsLayered ((Arrangement.ofTokens (tokens.take taken)).held.drop left)
          sum product signs := by
  have perm : (Program.ofTokens tokens).Perm (Program.readingOrder tokens) := by
    rw [Program.readingOrder_eq]
    exact Program.perm_ofTokens tokens
  refine ⟨?_, ?_, perm, fun taken left => ?_⟩
  · rw [perm.length_eq, Program.length_readingOrder]
  · exact Arrangement.filterMap_value?_program_foldl_add {} tokens
  · have nothing : Arrangement.IsStacked (Arrangement.held {}) := List.Pairwise.nil
    have stacked : Arrangement.IsStacked (Arrangement.ofTokens (tokens.take taken)).held :=
      Arrangement.isStacked_held_foldl_add nothing _
    have stillStacked :
        Arrangement.IsStacked ((Arrangement.ofTokens (tokens.take taken)).held.drop left) :=
      List.Pairwise.sublist (List.drop_sublist _ _) stacked
    exact stillStacked.exists_isLayered

end AmountPad
