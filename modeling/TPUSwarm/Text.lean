import Mathlib.Data.List.Sort
import Mathlib.Data.String.Basic

/-!
# The string operations of the source

`str.upper` and `str.lower` are used only before a comparison with ASCII text or a filter
that keeps ASCII letters. They are exact on ASCII and on the few other characters whose
image has an ASCII letter in it; every other character is left as it is.
-/

namespace TPUSwarm

/-- The non-ASCII characters whose upper case has ASCII letters in it. -/
def specialUpper : List (Char × String) :=
  [('ß', "SS"), ('ı', "I"), ('ŉ', "ʼN"), ('ſ', "S"), ('ǰ', "J\u030c"), ('ẖ', "H\u0331"),
    ('ẗ', "T\u0308"), ('ẘ', "W\u030a"), ('ẙ', "Y\u030a"), ('ẚ', "Aʾ"), ('ﬀ', "FF"), ('ﬁ', "FI"),
    ('ﬂ', "FL"), ('ﬃ', "FFI"), ('ﬄ', "FFL"), ('ﬅ', "ST"), ('ﬆ', "ST")]

/-- `str.upper`. -/
def upper (s : String) : String :=
  String.ofList (s.toList.flatMap fun c =>
    if c.isLower then [c.toUpper] else ((specialUpper.lookup c).map String.toList).getD [c])

/-- The non-ASCII characters whose lower case has ASCII letters in it. -/
def specialLower : List (Char × String) := [('İ', "i\u0307"), ('\u212a', "k")]

/-- `str.lower`. -/
def lower (s : String) : String :=
  String.ofList (s.toList.flatMap fun c =>
    if c.isUpper then [c.toLower] else ((specialLower.lookup c).map String.toList).getD [c])

/-- `str.startswith`. -/
def startsWith (s start : String) : Bool := start.toList.isPrefixOf s.toList

/-- The white space that `str.strip` removes. -/
def isSpace (c : Char) : Bool :=
  let n := c.toNat
  (0x9 ≤ n && n ≤ 0xd) || (0x1c ≤ n && n ≤ 0x20) || n = 0x85 || n = 0xa0 || n = 0x1680 ||
    (0x2000 ≤ n && n ≤ 0x200a) || n = 0x2028 || n = 0x2029 || n = 0x202f || n = 0x205f || n = 0x3000

/-- `not s.strip()`: nothing but white space. -/
def isBlank (s : String) : Bool := s.toList.all isSpace

/-- A sample text is not blank. -/
theorem isBlank_train : isBlank "train" = false := by decide +kernel

/-- A sample text is not blank. -/
theorem isBlank_v6e : isBlank "v6e" = false := by decide +kernel

/-- A sample text is not blank. -/
theorem isBlank_tree : isBlank "tree" = false := by decide +kernel

/-- A sample text is not blank. -/
theorem isBlank_evaluator : isBlank "evaluator" = false := by decide +kernel

/-- `str.title` on ASCII text: a letter after a letter is lowered, any other is raised. -/
def titleChars : Bool → List Char → List Char
  | _, [] => []
  | afterLetter, c :: rest =>
    (if afterLetter then c.toLower else c.toUpper) :: titleChars c.isAlpha rest

/-- `str.title`. -/
def title (s : String) : String := String.ofList (titleChars false s.toList)

/-- `re.sub(r"[^a-z0-9-]+", "-", s)`: each run of other characters becomes one hyphen.

The flag says whether the run in hand already has its hyphen. -/
def sanitize : Bool → List Char → List Char
  | _, [] => []
  | inRun, c :: rest =>
    if c.isLower || c.isDigit || c = '-' then c :: sanitize false rest
    else if inRun then sanitize true rest
    else '-' :: sanitize true rest

/-- `s.strip("-")`. -/
def stripHyphens (s : List Char) : List Char :=
  ((s.dropWhile (· = '-')).reverse.dropWhile (· = '-')).reverse

/-- `", ".join(sorted(keys))`. -/
def joinSorted (keys : List String) : String :=
  String.intercalate ", " (keys.insertionSort (· ≤ ·))

/-- The hexadecimal digit of a value below sixteen. -/
def hexDigit (n : ℕ) : Char := "0123456789abcdef".toList.getD n '0'

/-- The lowest `width` hexadecimal digits of a number. -/
def hexDigits : ℕ → ℕ → List Char
  | 0, _ => []
  | width + 1, n => hexDigit (n / 16 ^ width % 16) :: hexDigits width n

/-- The first and the last of the characters in a row that `str.isprintable` excludes: controls, separators but the
space, formats and private ones. Characters that Unicode has not assigned yet are left out. -/
def unprintable : List (ℕ × ℕ) :=
  [(0x0, 0x1f), (0x7f, 0xa0), (0xad, 0xad), (0x600, 0x605), (0x61c, 0x61c), (0x6dd, 0x6dd), (0x70f, 0x70f),
    (0x890, 0x891), (0x8e2, 0x8e2), (0x1680, 0x1680), (0x180e, 0x180e), (0x2000, 0x200f), (0x2028, 0x202f),
    (0x205f, 0x2064), (0x2066, 0x206f), (0x3000, 0x3000), (0xe000, 0xf8ff), (0xfeff, 0xfeff), (0xfff9, 0xfffb),
    (0x110bd, 0x110bd), (0x110cd, 0x110cd), (0x13430, 0x13438), (0x1bca0, 0x1bca3), (0x1d173, 0x1d17a),
    (0xe0001, 0xe0001), (0xe0020, 0xe007f), (0xf0000, 0xffffd), (0x100000, 0x10fffd)]

/-- `c.isprintable()`. -/
def isPrintable (c : Char) : Bool := !unprintable.any fun row => row.1 ≤ c.toNat && c.toNat ≤ row.2

/-- `repr` of a string: single quotes unless the text has one and no double quote. -/
def reprText (s : String) : String :=
  let quote := if s.toList.contains '\'' && !s.toList.contains '"' then '"' else '\''
  let escape (c : Char) : List Char :=
    if c = '\\' || c = quote then ['\\', c]
    else if c = '\n' then ['\\', 'n']
    else if c = '\r' then ['\\', 'r']
    else if c = '\t' then ['\\', 't']
    else if isPrintable c then [c]
    else if c.toNat < 0x100 then '\\' :: 'x' :: hexDigits 2 c.toNat
    else if c.toNat < 0x10000 then '\\' :: 'u' :: hexDigits 4 c.toNat
    else '\\' :: 'U' :: hexDigits 8 c.toNat
  String.ofList (quote :: s.toList.flatMap escape ++ [quote])

/-- Decimal numerals tell numbers apart. -/
theorem numeral_injective {m n : ℕ} (h : Nat.toDigits 10 m = Nat.toDigits 10 n) : m = n := by
  simpa using congrArg (fun digits => Nat.ofDigitChars 10 digits 0) h

end TPUSwarm
