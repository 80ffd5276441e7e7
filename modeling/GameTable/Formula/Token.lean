import GameTable.Decimal.Layout
import GameTable.Text.Quoted
import GameTable.Value.Printer

/-!
# Tokens of a formula

A formula is cut into tokens, each with the number of characters before it. Syntax messages name
tokens by `Token.describe`: a kind, and for tokens that carry something what they carry.
-/

namespace GameTable.Formula

inductive Token where
  | int (n : Int)
  | double (x : Float)
  | str (s : String)
  | ident (name : String)
  | true
  | false
  | null
  | in
  | plus
  | minus
  | star
  | slash
  | percent
  | eqEq
  | notEq
  | lt
  | le
  | gt
  | ge
  | andAnd
  | orOr
  | bang
  | question
  | colon
  | dot
  | comma
  | lParen
  | rParen
  | lBracket
  | rBracket
  | lBrace
  | rBrace
  | eof
deriving DecidableEq

/-- A token and the position of its first character. -/
structure Lexeme where
  token : Token
  position : Nat
deriving DecidableEq

/-- How a syntax message names a token. -/
def Token.describe : Token → String
  | .int n => "Int(" ++ Value.intText n ++ ")"
  | .double x => "Double(" ++ Decimal.literal.text x ++ ")"
  | .str s => "Str(" ++ Text.quoted s ++ ")"
  | .ident name => "Ident(" ++ Text.quoted name ++ ")"
  | .true => "True"
  | .false => "False"
  | .null => "Null"
  | .in => "In"
  | .plus => "Plus"
  | .minus => "Minus"
  | .star => "Star"
  | .slash => "Slash"
  | .percent => "Percent"
  | .eqEq => "EqEq"
  | .notEq => "NotEq"
  | .lt => "Lt"
  | .le => "Le"
  | .gt => "Gt"
  | .ge => "Ge"
  | .andAnd => "AndAnd"
  | .orOr => "OrOr"
  | .bang => "Bang"
  | .question => "Question"
  | .colon => "Colon"
  | .dot => "Dot"
  | .comma => "Comma"
  | .lParen => "LParen"
  | .rParen => "RParen"
  | .lBracket => "LBracket"
  | .rBracket => "RBracket"
  | .lBrace => "LBrace"
  | .rBrace => "RBrace"
  | .eof => "Eof"

example : Token.describe (.double 1.5) = "Double(1.5)" := by decide +kernel

end GameTable.Formula
