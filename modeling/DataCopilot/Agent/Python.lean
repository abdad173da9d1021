import DataCopilot.Library.Text
import Mathlib.Algebra.Order.Ring.Rat

/-! What the agent asks of Python itself. -/
namespace DataCopilot.Agent

/-- `str` methods, the finite number that a text denotes as a `Decimal`, the two ways a
number is written out (`format(abs(x).normalize(), "f")` and `abs(x)` to two places), and
SHA-256 in hexadecimal. -/
structure Python where
  lower : String → String
  upper : String → String
  isalnum : Char → Bool
  decimal : String → Option ℚ
  plain : ℚ → String
  percent : ℚ → String
  sha256 : String → String

/-- Python as far as runs on ASCII texts without numbers need it. -/
def asciiPython : Python where
  lower := Text.lower
  upper := Text.upper
  isalnum := Char.isAlphanum
  decimal _ := none
  plain _ := ""
  percent _ := ""
  sha256 _ := ""

end DataCopilot.Agent
