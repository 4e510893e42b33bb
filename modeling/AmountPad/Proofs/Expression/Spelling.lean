import AmountPad.Expression.Chain
import AmountPad.Proofs.Expression.Arrangement
import AmountPad.Proofs.Token.Reading

/-!
# Texts that spell an expression

A text spells an expression when it writes out the leaves and the operators of
the tree from left to right.  The reader finds the tokens of the tree in it.

Every chain of operands spells exactly one expression without parentheses, the
one whose products bind tighter than its sums and which groups to the left.
-/

namespace AmountPad

/-- A text in plain spelling writes out an expression.  Different trees may be
written in the same way. -/
inductive Spells : Text → Expression → Prop where
  | number {literal value} :
      IsLiteral literal → (Decimal.ofLiteral literal).toFloat? = some value →
        Spells literal (.number value)
  | negate {text operand} :
      Spells text operand → Spells (Operator.minus.symbol :: text) (.negate operand)
  | binary {first last left right} (operator : Operator) :
      Spells first left → Spells last right →
        Spells (first ++ operator.symbol :: last) (.binary operator left right)

open Expression

/-- The tokens of an expression are read from its text, up to where its last
literal ends. -/
theorem Spells.readAll_append {text : Text} {expression : Expression}
    (spells : Spells text expression) {rest : Text} (ends : EndsLiteral rest) :
    Token.readAll (text ++ rest) =
      expression.tokens.map .ok ++ Token.readAll rest := by
  induction spells generalizing rest with
  | number isLiteral valueEq =>
      have read := Token.next?_literal isLiteral ends
      simp only [Token.ofLiteral_of_isLiteral isLiteral, valueEq] at read
      exact Token.readAll_of_next? read
  | negate _ inductionHypothesis =>
      rw [List.cons_append, Token.readAll_of_next? (Token.next?_symbol _ _),
        inductionHypothesis ends]
      rfl
  | binary operator _ _ firstHypothesis lastHypothesis =>
      rw [List.append_assoc, List.cons_append,
        firstHypothesis (endsLiteral_symbol_cons _ _),
        Token.readAll_of_next? (Token.next?_symbol _ _), lastHypothesis ends]
      simp [tokens]

/-- A text that spells an expression has its tokens. -/
theorem Spells.ofText_eq {text : Text} {expression : Expression}
    (spells : Spells (plain text) expression) :
    Token.ofText text = .ok expression.tokens := by
  have read := spells.readAll_append endsLiteral_nil
  have nonempty : plain text ≠ [] := by
    intro isEmpty
    have noTokens : expression.tokens = [] := by
      simpa [isEmpty] using read.symm
    exact expression.tokens_ne_nil noTokens
  rw [List.append_nil] at read
  rw [Token.ofText, if_neg nonempty, read, Token.mapM_tokens_append,
    Token.readAll_nil]
  simp [Except.map, pure, Except.pure]

/-- A text spells one sum at most. -/
theorem Spells.eq_of_isSum {text : Text} {first second : Expression}
    (firstSpells : Spells text first) (firstSum : first.IsSum)
    (secondSpells : Spells text second) (secondSum : second.IsSum) :
    first = second := by
  have firstRead := firstSpells.readAll_append endsLiteral_nil
  have secondRead := secondSpells.readAll_append endsLiteral_nil
  apply firstSum.eq_of_tokens_eq secondSum
  rw [firstRead] at secondRead
  exact (List.map_inj_right fun _ _ => Except.ok.inj).mp
    (List.append_cancel_right secondRead)

/-- An operand spells a factor. -/
theorem IsOperand.exists_spells {text : Text}
    (operand : IsOperand IsFiniteLiteral text) :
    ∃ expression : Expression, expression.IsFactor ∧ Spells text expression := by
  induction operand with
  | literal isFinite =>
      rcases Option.isSome_iff_exists.mp isFinite.2 with ⟨value, valueEq⟩
      exact ⟨.number value, .number value, .number isFinite.1 valueEq⟩
  | negated _ inductionHypothesis =>
      rcases inductionHypothesis with ⟨expression, isFactor, spells⟩
      exact ⟨.negate expression, .negate isFactor, .negate spells⟩

/-- An operator that binds as tightly as a product makes a product of a product
and a factor behind it. -/
theorem Spells.exists_extend_product {text last : Text} {product factor : Expression}
    {operator : Operator} (tight : (Action.apply operator).rank = 2)
    (isProduct : product.IsProduct) (productSpells : Spells text product)
    (isFactor : factor.IsFactor) (factorSpells : Spells last factor) :
    ∃ expression : Expression,
      expression.IsProduct ∧ Spells (text ++ operator.symbol :: last) expression := by
  refine ⟨.binary operator product factor, ?_,
    .binary operator productSpells factorSpells⟩
  cases operator with
  | plus => cases tight
  | minus => cases tight
  | times => exact .times isProduct isFactor
  | divide => exact .divide isProduct isFactor

/-- A sum is a product, or ends in a product for which any other could stand. -/
theorem Expression.IsSum.isProduct_or_ends {sum : Expression} (isSum : sum.IsSum) :
    sum.IsProduct ∨ ∃ operator left right,
      sum = .binary operator left right ∧ right.IsProduct ∧
        ∀ other : Expression, other.IsProduct → (binary operator left other).IsSum := by
  cases isSum with
  | product isProduct => exact .inl isProduct
  | plus isSum isProduct =>
      exact .inr ⟨_, _, _, rfl, isProduct, fun _ isOther => .plus isSum isOther⟩
  | minus isSum isProduct =>
      exact .inr ⟨_, _, _, rfl, isProduct, fun _ isOther => .minus isSum isOther⟩

/-- An operator and a factor behind a sum go to the last product of the sum if
they bind as tightly as it, and to the root of the sum otherwise. -/
theorem Spells.exists_extend_sum {text last : Text} {sum factor : Expression}
    (operator : Operator) (isSum : sum.IsSum) (sumSpells : Spells text sum)
    (isFactor : factor.IsFactor) (factorSpells : Spells last factor) :
    ∃ expression : Expression,
      expression.IsSum ∧ Spells (text ++ operator.symbol :: last) expression := by
  by_cases tight : (Action.apply operator).rank = 2
  · rcases isSum.isProduct_or_ends with
      isProduct | ⟨lower, left, right, rfl, isProduct, replace⟩
    · rcases sumSpells.exists_extend_product tight isProduct isFactor
        factorSpells with ⟨expression, isProduct, spells⟩
      exact ⟨expression, .product isProduct, spells⟩
    · cases sumSpells with
      | binary _ leftSpells rightSpells =>
          rcases rightSpells.exists_extend_product tight isProduct isFactor
            factorSpells with ⟨longer, isLonger, spells⟩
          have regrouped := Spells.binary lower leftSpells spells
          rw [← List.cons_append, ← List.append_assoc] at regrouped
          exact ⟨.binary lower left longer, replace longer isLonger, regrouped⟩
  · refine ⟨.binary operator sum factor, ?_, .binary operator sumSpells factorSpells⟩
    cases operator with
    | plus => exact .plus isSum (.factor isFactor)
    | minus => exact .minus isSum (.factor isFactor)
    | times => exact absurd rfl tight
    | divide => exact absurd rfl tight

/-- A chain of operands spells a sum. -/
theorem IsChain.exists_spells {text : Text} (chain : IsChain IsFiniteLiteral text) :
    ∃ expression : Expression, expression.IsSum ∧ Spells text expression := by
  induction chain with
  | operand operand =>
      rcases operand.exists_spells with ⟨expression, isFactor, spells⟩
      exact ⟨expression, .product (.factor isFactor), spells⟩
  | extend operator _ operand inductionHypothesis =>
      rcases inductionHypothesis with ⟨sum, isSum, sumSpells⟩
      rcases operand.exists_spells with ⟨factor, isFactor, factorSpells⟩
      exact sumSpells.exists_extend_sum operator isSum isFactor factorSpells

end AmountPad
