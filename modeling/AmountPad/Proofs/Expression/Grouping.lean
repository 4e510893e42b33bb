import AmountPad.Proofs.Expression.Spelling

/-!
# Regrouping an expression

Every tree has the tokens of a sum: signs go to the first number behind them, and an
operator behind a sum takes the last product of the sum or all of it as its left
operand, as tightly as it binds.

Tokens are always arranged for the sum.  A program determines its tree, so the tokens
of a tree are arranged into the program of the tree only if the tree is that sum.
-/

namespace AmountPad.Expression

/-! ## Signs -/

/-- A sign in front of a product belongs to its first factor. -/
theorem IsProduct.exists_negate {product : Expression} (isProduct : product.IsProduct) :
    ∃ regrouped : Expression,
      regrouped.IsProduct ∧ regrouped.tokens = .operator .minus :: product.tokens := by
  induction isProduct with
  | factor isFactor => exact ⟨_, .factor isFactor.negate, rfl⟩
  | @times left right _ isFactor inductionHypothesis =>
      obtain ⟨negated, isNegated, tokensEq⟩ := inductionHypothesis
      exact ⟨.binary .times negated right, .times isNegated isFactor, by simp [tokens, tokensEq]⟩
  | @divide left right _ isFactor inductionHypothesis =>
      obtain ⟨negated, isNegated, tokensEq⟩ := inductionHypothesis
      exact ⟨.binary .divide negated right, .divide isNegated isFactor,
        by simp [tokens, tokensEq]⟩

/-- A sign in front of a sum belongs to its first product. -/
theorem IsSum.exists_negate {sum : Expression} (isSum : sum.IsSum) :
    ∃ regrouped : Expression,
      regrouped.IsSum ∧ regrouped.tokens = .operator .minus :: sum.tokens := by
  induction isSum with
  | product isProduct =>
      obtain ⟨negated, isNegated, tokensEq⟩ := isProduct.exists_negate
      exact ⟨negated, .product isNegated, tokensEq⟩
  | @plus left right _ isProduct inductionHypothesis =>
      obtain ⟨negated, isNegated, tokensEq⟩ := inductionHypothesis
      exact ⟨.binary .plus negated right, .plus isNegated isProduct, by simp [tokens, tokensEq]⟩
  | @minus left right _ isProduct inductionHypothesis =>
      obtain ⟨negated, isNegated, tokensEq⟩ := inductionHypothesis
      exact ⟨.binary .minus negated right, .minus isNegated isProduct, by simp [tokens, tokensEq]⟩

/-! ## Operators -/

/-- An operator that binds as tightly as a product makes a product. -/
theorem IsProduct.binary {product factor : Expression} {operator : Operator}
    (tight : (Action.apply operator).rank = 2) (isProduct : product.IsProduct)
    (isFactor : factor.IsFactor) : (Expression.binary operator product factor).IsProduct := by
  cases operator with
  | plus => cases tight
  | minus => cases tight
  | times => exact .times isProduct isFactor
  | divide => exact .divide isProduct isFactor

/-- An operator that binds less tightly than a product makes a sum. -/
theorem IsSum.binary {sum product : Expression} {operator : Operator}
    (loose : (Action.apply operator).rank ≠ 2) (isSum : sum.IsSum)
    (isProduct : product.IsProduct) : (Expression.binary operator sum product).IsSum := by
  cases operator with
  | plus => exact .plus isSum isProduct
  | minus => exact .minus isSum isProduct
  | times => exact absurd rfl loose
  | divide => exact absurd rfl loose

/-- A factor goes behind the last product of a sum, or makes a product of its own. -/
theorem IsSum.exists_append_factor {sum factor : Expression} (isSum : sum.IsSum)
    (operator : Operator) (isFactor : factor.IsFactor) :
    ∃ regrouped : Expression,
      regrouped.IsSum ∧ regrouped.tokens = sum.tokens ++ .operator operator :: factor.tokens := by
  by_cases tight : (Action.apply operator).rank = 2
  · rcases isSum.isProduct_or_ends with
      isProduct | ⟨lower, left, last, rfl, isProduct, replace⟩
    · exact ⟨_, .product (isProduct.binary tight isFactor), rfl⟩
    · refine ⟨.binary lower left (.binary operator last factor),
        replace _ (isProduct.binary tight isFactor), ?_⟩
      simp [tokens]
  · exact ⟨_, isSum.binary tight (.factor isFactor), rfl⟩

/-- The factors of a product go behind a sum one after the other. -/
theorem IsSum.exists_append_product {sum product : Expression} (isSum : sum.IsSum)
    (operator : Operator) (isProduct : product.IsProduct) :
    ∃ regrouped : Expression,
      regrouped.IsSum ∧
        regrouped.tokens = sum.tokens ++ .operator operator :: product.tokens := by
  induction isProduct with
  | factor isFactor => exact isSum.exists_append_factor operator isFactor
  | times _ isFactor inductionHypothesis =>
      obtain ⟨front, isFront, frontEq⟩ := inductionHypothesis
      obtain ⟨whole, isWhole, wholeEq⟩ := isFront.exists_append_factor .times isFactor
      exact ⟨whole, isWhole, by simp [wholeEq, frontEq, tokens]⟩
  | divide _ isFactor inductionHypothesis =>
      obtain ⟨front, isFront, frontEq⟩ := inductionHypothesis
      obtain ⟨whole, isWhole, wholeEq⟩ := isFront.exists_append_factor .divide isFactor
      exact ⟨whole, isWhole, by simp [wholeEq, frontEq, tokens]⟩

/-- The products of a sum go behind another sum one after the other. -/
theorem IsSum.exists_append {first second : Expression} (isFirst : first.IsSum)
    (operator : Operator) (isSecond : second.IsSum) :
    ∃ regrouped : Expression,
      regrouped.IsSum ∧
        regrouped.tokens = first.tokens ++ .operator operator :: second.tokens := by
  induction isSecond with
  | product isProduct => exact isFirst.exists_append_product operator isProduct
  | plus _ isProduct inductionHypothesis =>
      obtain ⟨front, isFront, frontEq⟩ := inductionHypothesis
      obtain ⟨whole, isWhole, wholeEq⟩ := isFront.exists_append_product .plus isProduct
      exact ⟨whole, isWhole, by simp [wholeEq, frontEq, tokens]⟩
  | minus _ isProduct inductionHypothesis =>
      obtain ⟨front, isFront, frontEq⟩ := inductionHypothesis
      obtain ⟨whole, isWhole, wholeEq⟩ := isFront.exists_append_product .minus isProduct
      exact ⟨whole, isWhole, by simp [wholeEq, frontEq, tokens]⟩

/-! ## Trees -/

/-- Every tree has the tokens of a sum. -/
theorem exists_isSum_tokens_eq (expression : Expression) :
    ∃ sum : Expression, sum.IsSum ∧ sum.tokens = expression.tokens := by
  induction expression with
  | number x => exact ⟨.number x, .product (.factor (.number x)), rfl⟩
  | negate operand inductionHypothesis =>
      obtain ⟨sum, isSum, sumEq⟩ := inductionHypothesis
      obtain ⟨regrouped, isRegrouped, tokensEq⟩ := isSum.exists_negate
      exact ⟨regrouped, isRegrouped, by rw [tokensEq, sumEq, tokens]⟩
  | binary operator left right leftHypothesis rightHypothesis =>
      obtain ⟨first, isFirst, firstEq⟩ := leftHypothesis
      obtain ⟨second, isSecond, secondEq⟩ := rightHypothesis
      obtain ⟨regrouped, isRegrouped, tokensEq⟩ := isFirst.exists_append operator isSecond
      exact ⟨regrouped, isRegrouped, by rw [tokensEq, firstEq, secondEq, tokens]⟩

/-- The tokens of a tree, in which both kinds of minus are one, are arranged into its
postfix order, in which they are two, exactly if the tree is a sum. -/
theorem ofTokens_tokens_eq_program_iff (expression : Expression) :
    Program.ofTokens expression.tokens = expression.program ↔ expression.IsSum := by
  constructor
  · intro arranged
    obtain ⟨sum, isSum, tokensEq⟩ := expression.exists_isSum_tokens_eq
    rw [← tokensEq, isSum.program_ofTokens] at arranged
    rw [← program_injective arranged]
    exact isSum
  · exact IsSum.program_ofTokens

end AmountPad.Expression
