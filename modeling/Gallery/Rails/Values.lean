import Mathlib.Data.Int.Basic

/-!
# Request parameters and column values

How Rails 3.2 on Ruby 2.0 turns a request parameter into a column value, and
what PostgreSQL accepts for a column. A parameter is `none` when the request
does not carry it. An `integer` column sees a string in three ways: a hash
condition takes `to_i` of it, an attribute assignment first drops a blank
string, and a `?` bind hands PostgreSQL a quoted literal to parse.
-/

namespace Gallery.Rails

/-- Ruby's `[[:space:]]`, with U+180E as in the Unicode of Ruby 2.0. -/
def isSpace (c : Char) : Bool :=
  let n := c.toNat
  (9 ≤ n && n ≤ 13) || n = 0x20 || n = 0x85 || n = 0xa0 || n = 0x1680 ||
    n = 0x180e || (0x2000 ≤ n && n ≤ 0x200a) || n = 0x2028 || n = 0x2029 || n = 0x202f ||
    n = 0x205f || n = 0x3000

/-- `String#blank?`. -/
def blank? (s : String) : Bool := s.toList.all isSpace

/-- `present?` of an attribute that holds a string or `nil`. -/
def present? (s : Option String) : Bool := s.any fun s => !blank? s

/-- The white space that C's `isspace` accepts. -/
def isAsciiSpace (c : Char) : Bool := c.toNat = 0x20 || (9 ≤ c.toNat && c.toNat ≤ 13)

/-- `String#downcase`, which knows the letters from A to Z. -/
def downcase (s : String) : String := String.ofList (s.toList.map Char.toLower)

/-- `String#strip`: white space at both ends, and NUL at the end. -/
def strip (s : String) : String :=
  let cs := (s.toList.reverse.dropWhile fun c => isAsciiSpace c || c = '\x00').reverse
  String.ofList (cs.dropWhile isAsciiSpace)

/-- Reads digits as long as they last; one underscore may stand between two. -/
def scanDigits (n : ℕ) : List Char → ℕ
  | [] => n
  | c :: cs =>
    if c.isDigit then scanDigits (10 * n + (c.toNat - '0'.toNat)) cs
    else if c = '_' && (cs.head?.any Char.isDigit) then scanDigits n cs
    else n

/-- The optional sign in front of a numeral, and what follows it. -/
def scanSign : List Char → ℤ × List Char
  | '-' :: cs => (-1, cs)
  | '+' :: cs => (1, cs)
  | cs => (1, cs)

/-- `String#to_i`: the leading decimal numeral, `0` when there is none. -/
def to_i (s : String) : ℤ :=
  let (sign, cs) := scanSign (s.toList.dropWhile isAsciiSpace)
  let digits := match cs with
    | '0' :: 'd' :: cs => cs
    | '0' :: 'D' :: cs => cs
    | cs => cs
  if digits.head?.any Char.isDigit then sign * scanDigits 0 digits else 0

/-- The value of an `integer` attribute assigned a parameter: a blank string
becomes `nil`. -/
def assignInteger (param : Option String) : Option ℤ :=
  (param.filter fun s => !blank? s).map to_i

/-- The value an `integer` column is compared with in a hash condition; `none`
compares with `IS NULL`. -/
def whereInteger (param : Option String) : Option ℤ := param.map to_i

/-- The range of PostgreSQL's `integer`. -/
def fitsInteger (n : ℤ) : Bool := -2147483648 ≤ n && n ≤ 2147483647

/-- A `string` column is a `varchar(255)`. -/
def fitsString (s : String) : Bool := s.length ≤ 255

/-- How PostgreSQL reads a quoted literal as an `integer`; `none` is an error. -/
def parseInteger (s : String) : Option ℤ :=
  let (sign, cs) := scanSign (s.toList.dropWhile isAsciiSpace)
  let digits := (cs.reverse.dropWhile isAsciiSpace).reverse
  if !digits.isEmpty && digits.all Char.isDigit && fitsInteger (sign * scanDigits 0 digits) then
    some (sign * scanDigits 0 digits)
  else none

example : to_i " 12abc" = 12 ∧ to_i "abc" = 0 ∧ to_i "-1_000" = -1000 ∧
    parseInteger "12" = some 12 ∧ parseInteger "12abc" = none := by decide

end Gallery.Rails
