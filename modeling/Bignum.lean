import Bignum.Integer.Divisor
import Bignum.Integer.Narrow
import Bignum.Integer.Operator
import Bignum.Integer.Order
import Bignum.Integer.Arithmetic
import Bignum.Integer.Step
import Bignum.Fraction
import Bignum.Text.Parse
import Bignum.Sharing.Registers
import Bignum.Cell.Call
import Bignum.Int128
import Bignum.Proofs.Digits.Value
import Bignum.Proofs.Digits.Sum
import Bignum.Proofs.Cell.Steps
import Bignum.Proofs.Cell.History
import Bignum.Proofs.Integer.Canonical
import Bignum.Proofs.Digits.Shift
import Bignum.Proofs.Digits.ShiftLoop
import Bignum.Proofs.Digits.Bits
import Bignum.Proofs.Digits.Product
import Bignum.Proofs.Digits.ProductLoop
import Bignum.Proofs.Integer.Value
import Bignum.Proofs.Integer.Operand
import Bignum.Proofs.Integer.Order
import Bignum.Proofs.Integer.Arithmetic
import Bignum.Proofs.Integer.Addition
import Bignum.Proofs.Integer.Division
import Bignum.Proofs.Integer.Shift
import Bignum.Proofs.Integer.Divisor
import Bignum.Proofs.Integer.Power
import Bignum.Proofs.Integer.Narrow
import Bignum.Proofs.Integer.Multiplication
import Bignum.Proofs.Integer.Operator
import Bignum.Proofs.Text.Language
import Bignum.Proofs.Text.Reading
import Bignum.Proofs.Integer.Room
import Bignum.Proofs.Sharing.Pool
import Bignum.Proofs.Sharing.Writing
import Bignum.Proofs.Sharing.Private
import Bignum.Proofs.Sharing.Mirror
import Bignum.Proofs.Digits.OneDigit
import Bignum.Proofs.Digits.Schoolbook
import Bignum.Proofs.Digits.Quotient
import Bignum.Proofs.Text.Numeral
import Bignum.Proofs.Text.RoundTrip
import Bignum.Proofs.Sharing.Isolation
import Bignum.Proofs.Sharing.Stepping
import Bignum.Proofs.Cell.Moves
import Bignum.Proofs.Cell.Reclamation
import Bignum.Proofs.Cell.Counting
import Bignum.Cell.Threads
import Bignum.Proofs.Threads.Alone
import Bignum.Proofs.Threads.Counter
import Bignum.Proofs.Cell.Slots
import Bignum.Proofs.Cell.Backlog
import Bignum.Proofs.Cell.Races
import Bignum.Proofs.Fraction
import Bignum.Proofs.Text.Layout
import Bignum.Proofs.Sharing.Mutators
import Bignum.Proofs.Int128
import Bignum.Proofs.Digits.DivisionLoop
import Bignum.Proofs.Digits.OneDigitLoop
import Bignum.Proofs.Digits.BitScan
