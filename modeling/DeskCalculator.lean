import DeskCalculator.Main
import DeskCalculator.Proofs.CommandLine.KeyPresses
import DeskCalculator.Proofs.CommandLine.Recall
import DeskCalculator.Proofs.Expression.Balance
import DeskCalculator.Proofs.Expression.ClosingParenthesis
import DeskCalculator.Proofs.Expression.Continuation
import DeskCalculator.Proofs.Expression.Descent
import DeskCalculator.Proofs.Expression.Failure
import DeskCalculator.Proofs.Expression.GlyphReading
import DeskCalculator.Proofs.Expression.IntegerArithmetic
import DeskCalculator.Proofs.Expression.Literal
import DeskCalculator.Proofs.Expression.NegativeRoot
import DeskCalculator.Proofs.Expression.NestingLimit
import DeskCalculator.Proofs.Expression.OpenGroup
import DeskCalculator.Proofs.Expression.Parsing
import DeskCalculator.Proofs.Expression.Primitive
import DeskCalculator.Proofs.Expression.RootNesting
import DeskCalculator.Proofs.Expression.RootSubstitution
import DeskCalculator.Proofs.Expression.Scanning
import DeskCalculator.Proofs.Expression.ShownNumber
import DeskCalculator.Proofs.Expression.Spelling
import DeskCalculator.Proofs.Expression.SquareRewriting
import DeskCalculator.Proofs.Expression.SubstitutedValue
import DeskCalculator.Proofs.Expression.Termination
import DeskCalculator.Proofs.Expression.TokenText
import DeskCalculator.Proofs.Keypad.KeyWords
import DeskCalculator.Proofs.Number.Bits
import DeskCalculator.Proofs.Number.DecimalText
import DeskCalculator.Proofs.Number.DisplayRounding
import DeskCalculator.Proofs.Number.Exact
import DeskCalculator.Proofs.Number.Integer
import DeskCalculator.Proofs.Number.Neighbours
import DeskCalculator.Proofs.Number.ReadBack
import DeskCalculator.Proofs.Number.Redisplay
import DeskCalculator.Proofs.Number.Rounding
import DeskCalculator.Proofs.Number.Scale
import DeskCalculator.Proofs.Number.Shortest
import DeskCalculator.Proofs.Number.SignificantDigits
import DeskCalculator.Proofs.Number.SquareRoot
import DeskCalculator.Proofs.Session.Backspacing
import DeskCalculator.Proofs.Session.Chaining
import DeskCalculator.Proofs.Session.Consistency
import DeskCalculator.Proofs.Session.DoubleNegation
import DeskCalculator.Proofs.Session.Glyphs
import DeskCalculator.Proofs.Session.History
import DeskCalculator.Proofs.Session.Keeping
import DeskCalculator.Proofs.Session.LeadingOperator
import DeskCalculator.Proofs.Session.OneShot
import DeskCalculator.Proofs.Session.Parentheses
import DeskCalculator.Proofs.Session.Preview
import DeskCalculator.Proofs.Session.ShownError
import DeskCalculator.Proofs.Text.Words
