import StackCalc.Compile

/-! The grammar of expressions. An expression is kept as it is written, with its brackets, so that
its words can be read off it. The grammar relates words to expressions; it knows nothing of tokens
that wait or of opcodes that are emitted. -/
namespace StackCalc

/-- An expression as it is written. -/
inductive Expression where
  | number (text : String)
  /-- A minus directly before a number, which belongs to the number. -/
  | negative (text : String)
  | identifier (name : String)
  /-- An expression in brackets. -/
  | group (inner : Expression)
  | binary (op : Operator) (left right : Expression)
deriving DecidableEq, Repr

/-- The level of operands that are no operations. It is above the levels of all operators. -/
def primaryLevel : Nat := 4

/-- The grammar: `Derives k words t` says that `words`, read as `t`, are an expression of level `k`.
Such an expression is an operand of level `k + 1`, followed by any number of operators of level `k`
with an operand of level `k + 1` each. The rule `binary` takes the last operator of such a row, so
that all levels associate to the left. -/
inductive Derives : Nat → List Lexeme → Expression → Prop where
  | number (text : String) : Derives primaryLevel [.number text] (.number text)
  | negative (text : String) :
      Derives primaryLevel [.symbol (.operator (.arithmetic .subtract)), .number text]
        (.negative text)
  | identifier (name : String) : Derives primaryLevel [.identifier name] (.identifier name)
  | group {words : List Lexeme} {t : Expression} (inner : Derives 0 words t) :
      Derives primaryLevel (.symbol .openBracket :: (words ++ [.symbol .closeBracket])) (.group t)
  | operand {k : Nat} {words : List Lexeme} {t : Expression} (higher : Derives (k + 1) words t) :
      Derives k words t
  | binary {op : Operator} {before after : List Lexeme} {l r : Expression}
      (left : Derives op.level before l) (right : Derives (op.level + 1) after r) :
      Derives op.level (before ++ .symbol (.operator op) :: after) (.binary op l r)

def Scan.lexemes (s : Scan) : List Lexeme :=
  s.tokens.map Token.lexeme

namespace Expression

def lexemes : Expression → List Lexeme
  | .number text => [.number text]
  | .negative text => [.symbol (.operator (.arithmetic .subtract)), .number text]
  | .identifier name => [.identifier name]
  | .group t => .symbol .openBracket :: (t.lexemes ++ [.symbol .closeBracket])
  | .binary op l r => l.lexemes ++ .symbol (.operator op) :: r.lexemes

/-- How many brackets are open at once, at most. -/
def nesting : Expression → Nat
  | .number _ | .negative _ | .identifier _ => 0
  | .group t => t.nesting + 1
  | .binary _ l r => max l.nesting r.nesting

/-- The number that is written so, or the undefined one if no number is. -/
def numeralValue (written : List Char) : Float :=
  (Number.readChars? written).getD Number.undefined

/-- The opcodes of an expression: left operand, right operand, operator. Brackets add nothing, and
the minus of a number is read as part of it. -/
def postorder : Expression → List Opcode
  | .number text => [.number (numeralValue text.toList)]
  | .negative text => [.number (numeralValue ('-' :: text.toList))]
  | .identifier name => [.identifier name]
  | .group t => t.postorder
  | .binary op l r => l.postorder ++ r.postorder ++ [.operator op]

/-- The highest level at which an expression stands. -/
def level : Expression → Nat
  | .binary op _ _ => op.level
  | _ => primaryLevel

/-- Every operator has operands of the levels that the grammar asks for. -/
def Levelled : Expression → Prop
  | .number _ | .negative _ | .identifier _ => True
  | .group t => t.Levelled
  | .binary op l r => l.Levelled ∧ r.Levelled ∧ op.level ≤ l.level ∧ op.level < r.level

instance decidableLevelled : (t : Expression) → Decidable t.Levelled
  | .number _ | .negative _ | .identifier _ => .isTrue trivial
  | .group t => decidableLevelled t
  | .binary op l r =>
    letI := decidableLevelled l
    letI := decidableLevelled r
    inferInstanceAs (Decidable (l.Levelled ∧ r.Levelled ∧ op.level ≤ l.level ∧ op.level < r.level))

end Expression

theorem Operator.level_lt_primaryLevel (op : Operator) : op.level < primaryLevel := by
  rcases op with a | _
  · cases a <;> decide
  · decide

namespace Derives

/-- An expression of a level also stands at every lower one. -/
theorem of_le {j k : Nat} {words : List Lexeme} {t : Expression} (h : Derives j words t)
    (hLe : k ≤ j) : Derives k words t := by
  induction hLe with
  | refl => exact h
  | step _ ih => exact ih (.operand h)

/-- A derivation consumes exactly the lexemes of its expression. -/
theorem lexemes_eq {k : Nat} {words : List Lexeme} {t : Expression} (h : Derives k words t) :
    words = t.lexemes := by
  induction h with
  | number | negative | identifier => rfl
  | group _ ih => rw [ih, Expression.lexemes]
  | operand _ ih => exact ih
  | binary _ _ ihLeft ihRight => rw [ihLeft, ihRight, Expression.lexemes]

/-- An expression derived at a level binds at least as tightly as that level. -/
theorem le_level {k : Nat} {words : List Lexeme} {t : Expression} (h : Derives k words t) :
    k ≤ t.level := by
  induction h with
  | number | negative | identifier | group => exact Nat.le_refl _
  | operand _ ih => exact Nat.le_of_succ_le ih
  | binary => exact Nat.le_refl _

/-- The operands of a derived expression bind tightly enough for their places. -/
theorem levelled {k : Nat} {words : List Lexeme} {t : Expression} (h : Derives k words t) :
    t.Levelled := by
  induction h with
  | number | negative | identifier => trivial
  | group _ ih => exact ih
  | operand _ ih => exact ih
  | binary left right ihLeft ihRight =>
      exact ⟨ihLeft, ihRight, left.le_level, Nat.lt_of_succ_le right.le_level⟩

/-- The words of a levelled expression derive it, at its highest level. -/
theorem of_levelled {t : Expression} (h : t.Levelled) : Derives t.level t.lexemes t := by
  induction t with
  | number text => exact .number text
  | negative text => exact .negative text
  | identifier name => exact .identifier name
  | group t ih => exact .group ((ih h).of_le (Nat.zero_le _))
  | binary op l r ihLeft ihRight =>
      obtain ⟨hLeft, hRight, hLe, hLt⟩ := h
      exact .binary ((ihLeft hLeft).of_le hLe) ((ihRight hRight).of_le hLt)

end Derives

/-- Deriving an expression comes to three checks on it: its words, its levels and its place. -/
theorem derives_iff {k : Nat} {words : List Lexeme} {t : Expression} :
    Derives k words t ↔ words = t.lexemes ∧ t.Levelled ∧ k ≤ t.level := by
  constructor
  · intro h
    exact ⟨h.lexemes_eq, h.levelled, h.le_level⟩
  · rintro ⟨rfl, hLevelled, hLe⟩
    exact (Derives.of_levelled hLevelled).of_le hLe

instance (k : Nat) (words : List Lexeme) (t : Expression) : Decidable (Derives k words t) :=
  decidable_of_iff' _ derives_iff

end StackCalc
